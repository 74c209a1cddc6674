/-
# Proofs.Review.Orphans -- groups left alone, by the latest change of all

The search for orphans looks at the files of a group one by one and ends at the first change after the
limit, so the latest change it has seen need not be the latest of all.  It does not have to be: if the
search ends early the group is no orphan, and if it does not it has seen every file
(`lastChange_whole`).

The plain rule looks at all changes at once (`idleDays?`): the group is an orphan if the latest of them
is not after the limit.  Where all times are whole the search says the same, and it cannot fail
(`orphan?_whole`).  The rule depends on nothing but which files the groups are in
(`idleDays?_of_mem_iff`).
-/
import Mathlib.Data.Rat.Floor
import Mathlib.Order.Bounds.Basic
import CodeAtlas.Proofs.Run
import CodeAtlas.Proofs.Text.Order
import CodeAtlas.Review.Check

namespace CodeAtlas.Review

set_option autoImplicit false

/-! ## Whole moments -/

/-- What can be found out about files where all times are whole. -/
def wholeClock (changed : Text → Option Int) (now : Int) : Clock :=
  { changed := fun file => (changed file).map .whole, now := .whole now }

theorem before_whole (a b : Int) : (Moment.whole a).before (.whole b) = decide (a < b) := by
  simp [Moment.before, Moment.value?, Number.Dyadic.lt, Number.Dyadic.ofInt,
    Number.Dyadic.numerator, Number.Dyadic.denominator]

theorem daysEarlier_whole (now days : Int) :
    (Moment.whole now).daysEarlier days = .ok (.whole (now - 86400 * days)) := by
  rw [Int.mul_comm]
  rfl

theorem later_whole (a b : Int) :
    later (some (.whole a)) (.whole b) = .whole (max a b) := by
  rw [later, before_whole, max_def]
  by_cases less : a < b
  · simp [less, less.le]
  · simp only [less, decide_false, Bool.false_eq_true, if_false]
    split
    · rename_i most
      rw [le_antisymm most (not_lt.mp less)]
    · rfl

/-! ## The search -/

/-- With nothing seen after the limit yet, the search ends at a change after it or goes through all
changes, and what it keeps is the latest. -/
theorem lastChange_some_whole {limit latest : Int} (quiet : latest ≤ limit) (ms : List Int) :
    (∃ m ∈ ms, limit < m ∧
      lastChange (.whole limit) (some (.whole latest)) (ms.map .whole) = some (.whole m)) ∨
    (∀ m ∈ ms, m ≤ limit) ∧
      lastChange (.whole limit) (some (.whole latest)) (ms.map .whole) =
        some (.whole (ms.foldl max latest)) := by
  induction ms generalizing latest with
  | nil => exact .inr ⟨by simp, rfl⟩
  | cons m ms ih =>
      rw [List.map_cons, lastChange, before_whole, later_whole, List.foldl_cons,
        List.forall_mem_cons]
      by_cases late : limit < m
      · refine .inl ⟨m, List.mem_cons_self, late, ?_⟩
        rw [if_pos (by simpa using late), max_eq_right (quiet.trans late.le)]
      · rw [if_neg (by simpa using late)]
        rcases ih (max_le quiet (not_lt.mp late)) with ⟨k, inside, after, found⟩ | ⟨each, found⟩
        · exact .inl ⟨k, List.mem_cons_of_mem _ inside, after, found⟩
        · exact .inr ⟨⟨not_lt.mp late, each⟩, found⟩

/-- **The search ends at a change after the limit, or it finds the latest of all**, and then none is
after the limit. -/
theorem lastChange_whole (limit : Int) (ms : List Int) :
    (∃ m ∈ ms, limit < m ∧
      lastChange (.whole limit) none (ms.map .whole) = some (.whole m)) ∨
    (∀ m ∈ ms, m ≤ limit) ∧
      lastChange (.whole limit) none (ms.map .whole) = ms.max?.map .whole := by
  cases ms with
  | nil => exact .inr ⟨by simp, rfl⟩
  | cons m ms =>
      rw [List.map_cons, lastChange, before_whole, later, List.max?_cons', List.forall_mem_cons]
      by_cases late : limit < m
      · exact .inl ⟨m, List.mem_cons_self, late, if_pos (by simpa using late)⟩
      · rw [if_neg (by simpa using late)]
        rcases lastChange_some_whole (not_lt.mp late) ms with ⟨k, inside, after, found⟩ | ⟨each, found⟩
        · exact .inl ⟨k, List.mem_cons_of_mem _ inside, after, found⟩
        · exact .inr ⟨⟨not_lt.mp late, each⟩, found⟩

/-- **What the search finds, unless it is after the limit, is the latest of all**, unless that is. -/
theorem filter_lastChange_whole (limit : Int) (ms : List Int) :
    (lastChange (.whole limit) none (ms.map .whole)).filter
        (fun m => !(Moment.whole limit).before m) =
      (ms.max?.filter (· ≤ limit)).map .whole := by
  rcases lastChange_whole limit ms with ⟨m, inside, late, found⟩ | ⟨all, found⟩
  · have none_ : ms.max?.filter (· ≤ limit) = none := by
      rw [Option.filter_eq_none_iff]
      intro k most
      have later_ := (List.max?_eq_some_iff.mp most).2 m inside
      simpa using late.trans_le later_
    rw [found, none_, Option.filter_some, before_whole, if_neg (by simpa using late)]
    rfl
  · rw [found]
    cases most : ms.max? with
    | none => rfl
    | some k =>
        have old := all k (List.max?_eq_some_iff.mp most).1
        rw [Option.map_some, Option.filter_some, Option.filter_some, before_whole,
          if_pos (by simpa using old), if_pos (by simpa using old), Option.map_some]

/-! ## The plain rule -/

/-- All changes of the files of the groups, as far as they can be found out. -/
def changes (changed : Text → Option Int) (groups : List Group) : List Int :=
  groups.filterMap fun g => changed g.filePath

/-- The days since the latest of all changes, if it is at least so many days ago. -/
def idleDays? (changed : Text → Option Int) (now days : Int) (groups : List Group) : Option Int :=
  ((changes changed groups).max?.filter (· ≤ now - 86400 * days)).map fun m =>
    (now - m).fdiv 86400

section Rule

variable {changed : Text → Option Int} {now days : Int} {groups groups' : List Group}

theorem mem_changes {m : Int} :
    m ∈ changes changed groups ↔ ∃ g ∈ groups, changed g.filePath = some m := List.mem_filterMap

/-- Only the members count for the greatest of some numbers. -/
theorem max?_of_mem_iff {l l' : List Int} (same : ∀ m, m ∈ l ↔ m ∈ l') : l.max? = l'.max? := by
  apply Option.ext
  intro m
  simp only [List.max?_eq_some_iff, same]

/-- **The rule does not depend on the order of the groups**, nor on how often each is there. -/
theorem idleDays?_of_mem_iff (same : ∀ g, g ∈ groups ↔ g ∈ groups') :
    idleDays? changed now days groups = idleDays? changed now days groups' := by
  have members : ∀ m, m ∈ changes changed groups ↔ m ∈ changes changed groups' := by
    intro m
    simp only [mem_changes, same]
  rw [idleDays?, max?_of_mem_iff members, ← idleDays?]

/-- The days are counted from the latest change, which is not after the limit. -/
theorem idleDays?_eq_some_iff {n : Int} :
    idleDays? changed now days groups = some n ↔
      ∃ m, IsGreatest {m | m ∈ changes changed groups} m ∧ m ≤ now - 86400 * days ∧
        n = ⌊((now - m : Int) : ℚ) / 86400⌋ := by
  have floor (k : Int) : ⌊(k : ℚ) / 86400⌋ = k.fdiv 86400 := by
    rw [Int.fdiv_eq_ediv_of_nonneg k (by decide)]
    exact Rat.floor_intCast_div_natCast k 86400
  rw [idleDays?, Option.map_eq_some_iff]
  refine exists_congr fun m => ?_
  rw [Option.filter_eq_some_iff, List.max?_eq_some_iff, decide_eq_true_iff, and_assoc, floor,
    eq_comm]
  rfl

/-- **A group is an orphan if something can be found out about it, and no change is after the
limit.** -/
theorem isSome_idleDays?_iff :
    (idleDays? changed now days groups).isSome = true ↔
      (∃ g ∈ groups, (changed g.filePath).isSome = true) ∧
        ∀ g ∈ groups, ∀ m, changed g.filePath = some m → m ≤ now - 86400 * days := by
  constructor
  · intro idle
    obtain ⟨n, found⟩ := Option.isSome_iff_exists.mp idle
    obtain ⟨m, ⟨inside, most⟩, old, -⟩ := idleDays?_eq_some_iff.mp found
    obtain ⟨g, member, time⟩ := mem_changes.mp inside
    refine ⟨⟨g, member, by rw [time, Option.isSome_some]⟩, fun g' member' k time' => ?_⟩
    exact (most (mem_changes.mpr ⟨g', member', time'⟩)).trans old
  · rintro ⟨⟨g, member, known⟩, all⟩
    obtain ⟨k, time⟩ := Option.isSome_iff_exists.mp known
    have some_ : changes changed groups ≠ [] :=
      List.ne_nil_of_mem (mem_changes.mpr ⟨g, member, time⟩)
    obtain ⟨m, most⟩ := Option.ne_none_iff_exists'.mp (mt List.max?_eq_none_iff.mp some_)
    obtain ⟨g', member', time'⟩ := mem_changes.mp (List.max?_eq_some_iff.mp most).1
    rw [idleDays?, most, Option.filter_some, if_pos (by simpa using all g' member' m time')]
    rfl

end Rule

/-! ## The search and the rule -/

/-- **The search follows the plain rule**, and it does not fail. -/
theorem orphan?_whole (o : Options) (changed : Text → Option Int) (now : Int)
    (d : Text × List Group) :
    orphan? o (wholeClock changed now) d =
      .ok ((idleDays? changed now o.orphanedDays d.2).map (orphanedIssue d.1 d.2)) := by
  generalize times : (files d.2).filterMap changed = ms
  have found : (files d.2).filterMap (wholeClock changed now).changed = ms.map .whole := by
    rw [← times, List.map_filterMap]
    rfl
  have most : ms.max? = (changes changed d.2).max? := by
    apply max?_of_mem_iff
    intro m
    rw [← times, List.mem_filterMap, mem_changes]
    simp [files, Text.mem_distinct]
  have limit := daysEarlier_whole now o.orphanedDays
  have kept := filter_lastChange_whole (now - 86400 * o.orphanedDays) ms
  rw [idleDays?, ← most, orphan?, found, wholeClock, limit, Run.ok_bind]
  split
  · rename_i hollow
    obtain rfl : ms = [] := by simpa using hollow
    rfl
  cases last : lastChange (.whole (now - 86400 * o.orphanedDays)) none (ms.map .whole) with
  | none =>
      rw [last, Option.filter_none, eq_comm, Option.map_eq_none_iff] at kept
      rw [kept]
      rfl
  | some m =>
      rw [last, Option.filter_some] at kept
      dsimp only
      split
      · rename_i late
        rw [late, eq_comm, Bool.not_true, if_neg Bool.false_ne_true, Option.map_eq_none_iff] at kept
        rw [kept]
        rfl
      · rename_i old
        rw [if_pos (by simpa using old), eq_comm, Option.map_eq_some_iff] at kept
        obtain ⟨k, latest, rfl⟩ := kept
        rw [latest]
        rfl

theorem orphaned_whole (o : Options) (changed : Text → Option Int) (now : Int)
    (ds : Definitions) :
    orphaned o (wholeClock changed now) ds = .ok (ds.filterMap fun d =>
      (idleDays? changed now o.orphanedDays d.2).map (orphanedIssue d.1 d.2)) := by
  have each : ds.mapM (orphan? o (wholeClock changed now)) = .ok (ds.map fun d =>
      (idleDays? changed now o.orphanedDays d.2).map (orphanedIssue d.1 d.2)) := by
    rw [Run.mapM_eq_ok_iff, List.forall₂_map_right_iff, List.forall₂_same]
    exact fun d _ => orphan?_whole o changed now d
  rw [orphaned, each, Except.map, List.filterMap_map]
  rfl

/-- What an issue says of its group. -/
def verdict (i : Issue) : Text × Text := (i.group, i.message)

/-- The groups of a name may come in another order, and more than once. -/
theorem verdicts_of_mem_iff (o : Options) (changed : Text → Option Int) (now : Int)
    {ds ds' : Definitions}
    (same : List.Forall₂ (fun d d' => d.1 = d'.1 ∧ ∀ g, g ∈ d.2 ↔ g ∈ d'.2) ds ds') :
    (orphaned o (wholeClock changed now) ds).map (·.map verdict) =
      (orphaned o (wholeClock changed now) ds').map (·.map verdict) := by
  rw [orphaned_whole, orphaned_whole, Except.map, Except.map]
  refine congrArg Except.ok ?_
  induction same with
  | nil => rfl
  | @cons d d' _ _ here _ ih =>
      rw [List.filterMap_cons, List.filterMap_cons, idleDays?_of_mem_iff here.2]
      cases idleDays? changed now o.orphanedDays d'.2 with
      | none => exact ih
      | some n =>
          have told : verdict (orphanedIssue d.1 d.2 n) = verdict (orphanedIssue d'.1 d'.2 n) := by
            rw [here.1]
            rfl
          exact congrArg₂ List.cons told ih

/-- **A search that ends early finds what the plain rule says.**  A group is reported if something can
be found out about one of its files and no change of any is after the limit; the days are those since
the latest change of all.  The order of the groups of a name does not matter, nor how often each is
there. -/
theorem orphaned_plain (o : Options) (changed : Text → Option Int) (now : Int)
    (ds : Definitions) :
    orphaned o (wholeClock changed now) ds = .ok (ds.filterMap fun d =>
      (idleDays? changed now o.orphanedDays d.2).map (orphanedIssue d.1 d.2)) ∧
    (∀ groups, (idleDays? changed now o.orphanedDays groups).isSome = true ↔
      (∃ g ∈ groups, (changed g.filePath).isSome = true) ∧
        ∀ g ∈ groups, ∀ m, changed g.filePath = some m → m ≤ now - 86400 * o.orphanedDays) ∧
    (∀ groups n, idleDays? changed now o.orphanedDays groups = some n →
      ∃ m, IsGreatest {m | ∃ g ∈ groups, changed g.filePath = some m} m ∧
        n = ⌊((now - m : Int) : ℚ) / 86400⌋) ∧
    ∀ ds', List.Forall₂ (fun d d' => d.1 = d'.1 ∧ ∀ g, g ∈ d.2 ↔ g ∈ d'.2) ds ds' →
      (orphaned o (wholeClock changed now) ds).map (·.map verdict) =
        (orphaned o (wholeClock changed now) ds').map (·.map verdict) := by
  refine ⟨orphaned_whole o changed now ds, fun groups => isSome_idleDays?_iff, ?_,
    fun ds' same => verdicts_of_mem_iff o changed now same⟩
  intro groups n idle
  obtain ⟨m, greatest, -, days⟩ := idleDays?_eq_some_iff.mp idle
  simp only [mem_changes] at greatest
  exact ⟨m, greatest, days⟩

/-- One file was changed ninety days ago to the second, another one a second later. -/
def ninetyDays : Text → Option Int := fun file =>
  if file = "a" then some 864000 else if file = "b" then some 864001 else none

/-- A group in the first file and in one that is gone, one in both files, one in none. -/
def agingNames : Definitions :=
  [("idle", ["gone".toList, "a"]), ("busy", ["b".toList, "a"]), ("lost", ["gone".toList])].map
    fun d => (d.1, d.2.map fun file => { functionality := d.1, filePath := file, lines := [1] })

/-- Only the first is reported, also when its groups come in another order and twice. -/
theorem orphaned_plain_ninetyDays :
    let idle : List (Text × Text) := [("idle", "Group hasn't been modified in 90 days")]
    (orphaned {} (wholeClock ninetyDays 8640000) agingNames).map (·.map verdict) = .ok idle ∧
      (orphaned {} (wholeClock ninetyDays 8640000)
        (agingNames.map fun d => (d.1, d.2.reverse ++ d.2))).map (·.map verdict) = .ok idle := by
  intro idle
  obtain ⟨found, -, -, rearranged⟩ := orphaned_plain {} ninetyDays 8640000 agingNames
  have told : (orphaned {} (wholeClock ninetyDays 8640000) agingNames).map (·.map verdict) =
      .ok idle := by
    rw [found]
    exact congrArg Except.ok (by decide +kernel)
  refine ⟨told, (rearranged _ ?_).symm.trans told⟩
  rw [List.forall₂_map_right_iff, List.forall₂_same]
  exact fun d _ => ⟨rfl, fun g => by simp⟩

end CodeAtlas.Review
