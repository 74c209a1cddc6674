/-
# Proofs.Naming.Prefixes -- which prefix a suggested hierarchy takes from a name

The index of prefixes lists every name under each of its prefixes once.  The key of a prefix gives
the words of it back, because no word holds a space, so what is listed under a prefix are the names
that go on after it, and no others (`sharing_prefixIndex`).  The search through the prefixes of a name
goes from the longest to the shortest and stops at the first one with two names
(`sharedPrefix?_eq_some_iff`); one of the two is the name itself, since both passes let a prefix be as
long.

So a name gets a suggestion if another name has its first word in common with it and both have a
second one, and the prefix is the longest of those that it shares with any other name
(`hierarchies_longest`).
-/
import Mathlib.Data.List.Nodup
import Mathlib.Data.Nat.SuccPred
import Mathlib.Order.SuccPred.Archimedean
import CodeAtlas.Naming.Suggestion
import CodeAtlas.Proofs.Entries
import CodeAtlas.Proofs.Text.Words

namespace CodeAtlas.Naming

set_option autoImplicit false

variable {groups : List Group} {flat : List WordedName} {n : WordedName} {s : Suggestion}
  {words start : List Text} {name : Text} {bound size : Nat}

/-! ## The index of prefixes -/

/-- Words that are not empty and hold no white space. -/
def AreWords (ws : List Text) : Prop := ∀ w ∈ ws, w ≠ [] ∧ Text.Unbroken w

theorem areWords_canonicalWords (name : Text) : AreWords (canonicalWords name) :=
  fun _ => Text.of_mem_words

theorem AreWords.take (solid : AreWords words) (size : Nat) : AreWords (words.take size) :=
  fun w member => solid w (List.mem_of_mem_take member)

/-- **Different prefixes have different keys.** -/
theorem prefixKey_inj (solid : AreWords words) (solid' : AreWords start) :
    prefixKey words = prefixKey start ↔ words = start := by
  constructor
  · intro same
    rw [← Text.words_join solid, ← Text.words_join solid']
    exact congrArg Text.words same
  · rintro rfl
    rfl

theorem mem_prefixes_iff : start ∈ prefixes words ↔
    start ≠ [] ∧ start.length ≤ longestPrefix words ∧ words.take start.length = start := by
  have shorter : longestPrefix words ≤ words.length :=
    (Nat.min_le_right _ _).trans (Nat.sub_le _ _)
  rw [prefixes, List.mem_map]
  constructor
  · rintro ⟨i, short, rfl⟩
    rw [List.mem_range] at short
    have length : (words.take (i + 1)).length = i + 1 := List.length_take_of_le (by omega)
    refine ⟨List.ne_nil_of_length_pos (by omega), by omega, by rw [length]⟩
  · rintro ⟨some_, short, whole⟩
    have positive : 0 < start.length := List.length_pos_iff.mpr some_
    exact ⟨start.length - 1, List.mem_range.mpr (by omega), by rw [Nat.sub_add_cancel positive, whole]⟩

theorem nodup_prefixes (words : List Text) : (prefixes words).Nodup := by
  have shorter : longestPrefix words ≤ words.length :=
    (Nat.min_le_right _ _).trans (Nat.sub_le _ _)
  refine (List.nodup_map_iff_inj_on List.nodup_range).mpr fun i short j short' same => ?_
  rw [List.mem_range] at short short'
  have lengths := congrArg List.length same
  rw [List.length_take_of_le (by omega), List.length_take_of_le (by omega)] at lengths
  omega

/-- Each name with each of its prefixes. -/
def listings (flat : List WordedName) : List (List Text × Text) :=
  flat.flatMap fun n => (prefixes n.2).map (·, n.1)

theorem prefixIndex_eq (flat : List WordedName) :
    prefixIndex flat = Entries.collected (fun l => prefixKey l.1) Prod.snd (listings flat) := by
  simp only [prefixIndex, Entries.collected, listings, List.foldl_flatMap, List.foldl_map]

/-- **Under a prefix are the names that have it**, each listed once. -/
theorem sharing_prefixIndex (solid : ∀ n ∈ flat, AreWords n.2) (solid' : AreWords start) :
    sharing (prefixIndex flat) start = flat.countP fun n => start ∈ prefixes n.2 := by
  have listed : sharing (prefixIndex flat) start =
      (listings flat).countP fun l => prefixKey l.1 == prefixKey start := by
    rw [sharing, prefixIndex_eq, Entries.get?_collected, List.countP_eq_length_filter,
      ← List.length_map (f := Prod.snd)]
    dsimp only
    split
    · rename_i none_
      rw [none_]
      rfl
    · rfl
  have each : ∀ n ∈ flat, ((prefixes n.2).map (·, n.1)).countP
      (fun l => prefixKey l.1 == prefixKey start) = if start ∈ prefixes n.2 then 1 else 0 := by
    intro n member
    have count : ((prefixes n.2).map (·, n.1)).countP (fun l => prefixKey l.1 == prefixKey start) =
        (prefixes n.2).count start := by
      rw [List.countP_map]
      refine List.countP_congr fun p inside => ?_
      have solid'' : AreWords p := (mem_prefixes_iff.mp inside).2.2 ▸ (solid n member).take _
      simp [prefixKey_inj solid'' solid']
    rw [count]
    split
    · rename_i inside
      exact List.count_eq_one_of_mem (nodup_prefixes n.2) inside
    · rename_i outside
      exact List.count_eq_zero.mpr outside
  rw [listed]
  clear listed
  induction flat with
  | nil => rfl
  | cons n flat ih =>
      rw [listings, List.flatMap_cons, List.countP_append, each n List.mem_cons_self, List.countP_cons,
        ← listings, ih (fun m member => solid m (List.mem_cons_of_mem n member))
          fun m member => each m (List.mem_cons_of_mem n member), Nat.add_comm]
      simp only [decide_eq_true_eq]

/-! ## The search -/

/-- **The search finds the greatest size with two names**, not beyond the bound. -/
theorem sharedPrefix?_eq_some_iff {index : Entries (List Text)} :
    sharedPrefix? index words bound = some size ↔
      IsGreatest {k | 0 < k ∧ k ≤ bound ∧ 2 ≤ sharing index (words.take k)} size := by
  induction bound with
  | zero =>
      rw [sharedPrefix?]
      refine iff_of_false nofun ?_
      rintro ⟨⟨positive, bounded, -⟩, -⟩
      omega
  | succ bound ih =>
      rw [sharedPrefix?]
      split
      · rename_i few
        have same : {k | 0 < k ∧ k ≤ bound + 1 ∧ 2 ≤ sharing index (words.take k)} =
            {k | 0 < k ∧ k ≤ bound ∧ 2 ≤ sharing index (words.take k)} := by
          ext k
          refine and_congr_right fun _ => ⟨fun ⟨bounded, many⟩ => ⟨?_, many⟩, fun ⟨bounded, many⟩ =>
            ⟨by omega, many⟩⟩
          have other : k ≠ bound + 1 := by
            rintro rfl
            omega
          omega
        rw [same, ih]
      · rename_i many
        have greatest : IsGreatest {k | 0 < k ∧ k ≤ bound + 1 ∧ 2 ≤ sharing index (words.take k)}
            (bound + 1) := ⟨⟨by omega, le_rfl, by omega⟩, fun k inside => inside.2.1⟩
        rw [Option.some.injEq]
        constructor
        · rintro rfl
          exact greatest
        · exact greatest.unique

theorem sharedPrefix?_isSome_iff {index : Entries (List Text)} :
    (sharedPrefix? index words bound).isSome = true ↔
      ∃ k, 0 < k ∧ k ≤ bound ∧ 2 ≤ sharing index (words.take k) := by
  constructor
  · intro found
    obtain ⟨size, is⟩ := Option.isSome_iff_exists.mp found
    exact ⟨size, (sharedPrefix?_eq_some_iff.mp is).1⟩
  · rintro ⟨k, inside⟩
    obtain ⟨size, greatest⟩ := BddAbove.exists_isGreatest_of_nonempty
      (S := {k | 0 < k ∧ k ≤ bound ∧ 2 ≤ sharing index (words.take k)})
      ⟨bound, fun k inside => inside.2.1⟩ ⟨k, inside⟩
    rw [sharedPrefix?_eq_some_iff.mpr greatest]
    rfl

/-! ## Flat names -/

/-- The distinct functionalities that are not empty and have no delimiter, in order of first
occurrence. -/
def flatFunctionalities (groups : List Group) : List Text :=
  Text.distinct ((groups.map (·.functionality)).filter fun name =>
    !name.contains Hierarchy.delimiter && !name.isEmpty)

theorem nodup_flatFunctionalities (groups : List Group) : (flatFunctionalities groups).Nodup :=
  Text.nodup_distinct _

theorem delimiter_not_mem_of_flat (known : name ∈ flatFunctionalities groups) :
    Hierarchy.delimiter ∉ name := by
  have kept := (List.mem_filter.mp (Text.mem_distinct.mp known)).2
  simpa using (Bool.and_eq_true_iff.mp kept).1

theorem flatNames_eq (groups : List Group) :
    flatNames groups = (flatFunctionalities groups).map fun name => (name, canonicalWords name) := by
  rw [flatNames, names, ← Text.distinct_filter, List.filter_filter, flatFunctionalities]

/-- The second name has the first `size` words in common with the first one, and goes on. -/
def Shares (size : Nat) (a b : Text) : Prop :=
  size < (canonicalWords b).length ∧ (canonicalWords b).take size = (canonicalWords a).take size

instance (size : Nat) (a b : Text) : Decidable (Shares size a b) :=
  inferInstanceAs (Decidable (_ ∧ _))

/-- The index counts the flat names that share a prefix. -/
theorem sharing_flatNames (groups : List Group) (positive : 0 < size)
    (short : size ≤ longestPrefix (canonicalWords name)) :
    sharing (prefixIndex (flatNames groups)) ((canonicalWords name).take size) =
      (flatFunctionalities groups).countP fun other => Shares size name other := by
  have solid : ∀ n ∈ flatNames groups, AreWords n.2 := by
    intro n member
    obtain ⟨other, -, rfl⟩ := List.mem_map.mp (flatNames_eq groups ▸ member)
    exact areWords_canonicalWords other
  rw [sharing_prefixIndex solid ((areWords_canonicalWords name).take size), flatNames_eq,
    List.countP_map]
  rw [longestPrefix] at short
  have length : ((canonicalWords name).take size).length = size :=
    List.length_take_of_le (by omega)
  have some_ : (canonicalWords name).take size ≠ [] := List.ne_nil_of_length_pos (by omega)
  refine List.countP_congr fun other _ => ?_
  rw [Function.comp_apply, decide_eq_true_iff, decide_eq_true_iff, mem_prefixes_iff, length]
  dsimp only
  rw [and_iff_right some_, longestPrefix]
  refine and_congr_left fun _ => ?_
  omega

/-- In a list without repetitions, two members have a property that one of them has if another one
has it, too. -/
theorem two_le_countP_iff {α : Type} {l : List α} (nodup : l.Nodup) {p : α → Bool} {a : α}
    (member : a ∈ l) (holds : p a = true) : 2 ≤ l.countP p ↔ ∃ b ∈ l, b ≠ a ∧ p b = true := by
  have inside : a ∈ l.filter p := List.mem_filter.mpr ⟨member, holds⟩
  rw [List.countP_eq_length_filter]
  constructor
  · intro many
    have two : l.filter p ≠ [a] := by
      intro single
      rw [single, List.length_singleton] at many
      omega
    obtain ⟨b, found, other⟩ := (((nodup.filter p).ne_singleton_iff a).mp two).resolve_left
      (List.ne_nil_of_mem inside)
    exact ⟨b, (List.mem_filter.mp found).1, other, (List.mem_filter.mp found).2⟩
  · rintro ⟨b, found, other, holds'⟩
    have both : [a, b] ⊆ l.filter p := by simp [inside, found, holds']
    exact (List.subperm_of_subset (by simp [other.symm]) both).length_le

/-- **What the search finds for a flat name**: the size of its longest prefix that another flat name
has, too. -/
theorem sharedPrefix?_flatNames (groups : List Group) (member : name ∈ flatFunctionalities groups) :
    {k | 0 < k ∧ k ≤ longestPrefix (canonicalWords name) ∧
        2 ≤ sharing (prefixIndex (flatNames groups)) ((canonicalWords name).take k)} =
      {k | 0 < k ∧ k ≤ min 3 ((canonicalWords name).length - 1) ∧
        ∃ other ∈ flatFunctionalities groups, other ≠ name ∧ Shares k name other} := by
  ext k
  refine and_congr_right fun positive => and_congr_right fun short => ?_
  have itself : Shares k name name := by
    rw [longestPrefix] at short
    exact ⟨by omega, rfl⟩
  rw [sharing_flatNames groups positive short,
    two_le_countP_iff (nodup_flatFunctionalities groups) member (decide_eq_true itself)]
  simp only [decide_eq_true_eq]

/-! ## Suggestions -/

theorem hierarchies_eq (groups : List Group) : hierarchies groups =
    (flatFunctionalities groups).filterMap fun name =>
      forFlatName? (prefixIndex (flatNames groups)) (name, canonicalWords name) := by
  simp only [hierarchies]
  rw [flatNames_eq, List.filterMap_map, ← flatNames_eq]
  rfl

/-- The names with a suggestion, in the order of the names. -/
theorem map_current_hierarchies (groups : List Group) :
    (hierarchies groups).map (·.current) = (flatFunctionalities groups).filter fun name =>
      (sharedPrefix? (prefixIndex (flatNames groups)) (canonicalWords name)
        (longestPrefix (canonicalWords name))).isSome := by
  rw [hierarchies_eq, List.map_filterMap, ← List.filterMap_eq_filter]
  congr 1
  funext name
  rw [forFlatName?, Option.map_map]
  cases found : sharedPrefix? (prefixIndex (flatNames groups)) (canonicalWords name)
    (longestPrefix (canonicalWords name)) <;> simp [Option.guard, found]

/-- **Which names get a suggestion**: those that share their first word with another flat name, if
both have a second one. -/
theorem mem_map_current_iff (member : name ∈ flatFunctionalities groups) :
    name ∈ (hierarchies groups).map (·.current) ↔
      ∃ other ∈ flatFunctionalities groups, other ≠ name ∧ 2 ≤ (canonicalWords name).length ∧
        2 ≤ (canonicalWords other).length ∧
        (canonicalWords other).head? = (canonicalWords name).head? := by
  have sizes := sharedPrefix?_flatNames groups member
  have heads {ws vs : List Text} : ws.head? = vs.head? ↔ ws.take 1 = vs.take 1 := by
    cases ws <;> cases vs <;> simp
  rw [map_current_hierarchies, List.mem_filter, sharedPrefix?_isSome_iff, and_iff_right member]
  constructor
  · rintro ⟨k, inside⟩
    obtain ⟨positive, short, other, known, different, longer, common⟩ := Set.ext_iff.mp sizes k |>.mp inside
    have first := congrArg (List.take 1) common
    rw [List.take_take, List.take_take, Nat.min_eq_left positive] at first
    exact ⟨other, known, different, by omega, by omega, heads.mpr first⟩
  · rintro ⟨other, known, different, two, two', first⟩
    exact ⟨1, Set.ext_iff.mp sizes 1 |>.mpr ⟨Nat.one_pos, by omega, other, known, different, by omega,
      heads.mp first⟩⟩

/-- The sizes of the prefixes that a flat name shares with another one: three words at most, and one
word at least is left over of either name. -/
def sharedSizes (groups : List Group) (name : Text) : Set Nat :=
  {k | k ≤ min 3 ((canonicalWords name).length - 1) ∧
    ∃ other ∈ flatFunctionalities groups, other ≠ name ∧ Shares k name other}

/-- The suggestion to take the first words of a name, as many as are given, as a parent. -/
def takingApart (groups : List Group) (name : Text) (size : Nat) : Suggestion :=
  let parent := title ((canonicalWords name).take size)
  { current := name
    suggested := Hierarchy.format [parent, title ((canonicalWords name).drop size)]
    basis := .sharedPrefix ((flatFunctionalities groups).countP fun other => Shares size name other)
      parent }

/-- **A suggestion takes the longest shared prefix**, and counts the names that have it. -/
theorem of_mem_hierarchies (member : s ∈ hierarchies groups) :
    s.current ∈ flatFunctionalities groups ∧ ∃ size, 0 < size ∧
      IsGreatest (sharedSizes groups s.current) size ∧ takingApart groups s.current size = s := by
  rw [hierarchies_eq, List.mem_filterMap] at member
  obtain ⟨name, known, found⟩ := member
  obtain ⟨size, longest, rfl⟩ := Option.map_eq_some_iff.mp found
  rw [sharedPrefix?_eq_some_iff, sharedPrefix?_flatNames groups known] at longest
  obtain ⟨⟨positive, short, shared⟩, greatest⟩ := longest
  refine ⟨known, size, positive, ⟨⟨short, shared⟩, fun k inside => ?_⟩, ?_⟩
  · rcases Nat.eq_zero_or_pos k with rfl | positive'
    · exact Nat.zero_le size
    · exact greatest ⟨positive', inside⟩
  · dsimp only
    rw [takingApart, sharing_flatNames groups positive short]

/-- **Suggested hierarchies take the longest shared prefix.**  There is one suggestion at most for
each flat name, in the order of the names, and there is one exactly for the names that have their first
word in common with another one, both going on after it.  The prefix is the longest that the name
shares with any other, and the reason counts the names that have it and go on. -/
theorem hierarchies_longest (groups : List Group) :
    ((hierarchies groups).map (·.current)).Sublist (flatFunctionalities groups) ∧
    (flatFunctionalities groups).Nodup ∧
    (∀ name ∈ flatFunctionalities groups, name ∈ (hierarchies groups).map (·.current) ↔
      ∃ other ∈ flatFunctionalities groups, other ≠ name ∧ 2 ≤ (canonicalWords name).length ∧
        2 ≤ (canonicalWords other).length ∧
        (canonicalWords other).head? = (canonicalWords name).head?) ∧
    ∀ s ∈ hierarchies groups, ∃ size, IsGreatest (sharedSizes groups s.current) size ∧
      takingApart groups s.current size = s ∧
      s.reason = "Found " ++ Number.showNat ((flatFunctionalities groups).countP fun other =>
        size + 1 ≤ (canonicalWords other).length ∧
          (canonicalWords other).take size = (canonicalWords s.current).take size) ++
        " groups starting with \"" ++ title ((canonicalWords s.current).take size) ++ "\"" := by
  refine ⟨?_, nodup_flatFunctionalities groups, fun name => mem_map_current_iff, fun s member => ?_⟩
  · rw [map_current_hierarchies]
    exact List.filter_sublist
  · obtain ⟨-, size, -, greatest, same⟩ := of_mem_hierarchies member
    refine ⟨size, greatest, same, ?_⟩
    conv_lhs => rw [← same]
    rfl

/-- Names with a prefix of two words and one of one word. -/
def apiNames : List Group :=
  ["api user login".toList, "Api  User logout", "api status", "api"].map fun name =>
    { functionality := name, filePath := "a.js", lines := [1] }

/-- The longer prefix is taken where it is shared, and the name that is all prefix gets no
suggestion. -/
theorem hierarchies_longest_api :
    (hierarchies apiNames).map (fun s => (s.current, s.suggested)) =
        [("api user login".toList, "Api User > Login".toList),
          ("Api  User logout".toList, "Api User > Logout".toList),
          ("api status".toList, "Api > Status".toList)] ∧
      (∃ size, IsGreatest (sharedSizes apiNames "api user login") size ∧
        (takingApart apiNames "api user login" size).suggested = "Api User > Login".toList) ∧
      ∃ other ∈ flatFunctionalities apiNames, other ≠ "api status".toList ∧
        2 ≤ (canonicalWords other).length ∧
        (canonicalWords other).head? = (canonicalWords "api status").head? := by
  have given : (hierarchies apiNames).map (fun s => (s.current, s.suggested)) =
      [("api user login".toList, "Api User > Login".toList),
        ("Api  User logout".toList, "Api User > Logout".toList),
        ("api status".toList, "Api > Status".toList)] := by
    decide +kernel
  have flat : "api status".toList ∈ flatFunctionalities apiNames := by decide
  have currents := congrArg (List.map Prod.fst) given
  rw [List.map_map] at currents
  obtain ⟨-, -, which, longest⟩ := hierarchies_longest apiNames
  obtain ⟨s, member, same⟩ := List.mem_map.mp (given ▸ List.mem_cons_self)
  obtain ⟨current, suggested⟩ := Prod.mk.inj same
  obtain ⟨size, greatest, apart, -⟩ := longest s member
  rw [current] at greatest apart
  obtain ⟨other, known, different, -, two, first⟩ := (which _ flat).mp (by
    change _ ∈ (hierarchies apiNames).map (Prod.fst ∘ fun s => (s.current, s.suggested))
    simp [currents])
  exact ⟨given, ⟨size, greatest, apart ▸ suggested⟩, other, known, different, two, first⟩

end CodeAtlas.Naming
