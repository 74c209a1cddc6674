/-
# Proofs.Naming.Preference -- which of two names is kept

Of two names the one that is used more is better, then the longer one, then the one that comes
first (`Outranks`).  This is a strict total order of all names, because it compares what a name
amounts to, and no two names amount to the same (`rank`, `rank_injective`).  The name that is kept
of a pair is the better one of them, in whichever order they are given (`betterName_of_outranks`,
`betterName_comm`).

Two laws of the suggestions follow, and neither asks what makes two names alike, so they hold
although likeness is not transitive.

* Every suggestion is to use a better name (`outranks_of_mem`).  So suggestions never lead back to
  a name they started from, following them ends after at most as many steps as there are names,
  and for the best name nothing else is suggested (`similarNames_ascend`).
* A pair and the pair turned round get the same suggestion (`forPair?_swap`), and how often a name
  is used does not depend on the order of the groups.  So rearranged groups get the same
  suggestions (`similarNames_rearranged`).
-/
import Mathlib.Data.Finset.Max
import Mathlib.Data.List.Chain
import Mathlib.Data.Prod.Lex
import Mathlib.Logic.Relation
import CodeAtlas.Proofs.Correspondence
import CodeAtlas.Proofs.Naming.EditDistance
import CodeAtlas.Proofs.Naming.Similar

namespace CodeAtlas.Naming

set_option autoImplicit false

variable {threshold : Float} {groups groups' : List Group} {a b : Text} {s : Suggestion}

/-! ## The order of names -/

/-- **The first name is better than the second**: used more, or as much and longer, or as much and
as long and before it in the order of texts. -/
def Outranks (groups : List Group) (a b : Text) : Prop :=
  uses groups b < uses groups a ∨ uses groups a = uses groups b ∧
    (b.length < a.length ∨ a.length = b.length ∧ a < b)

instance (groups : List Group) (a b : Text) : Decidable (Outranks groups a b) :=
  inferInstanceAs (Decidable (_ ∨ _ ∧ (_ ∨ _ ∧ _)))

/-- What a name amounts to: its uses, its length, and its place from the end of all texts. -/
def rank (groups : List Group) (name : Text) : ℕ ×ₗ ℕ ×ₗ Textᵒᵈ :=
  toLex (uses groups name, toLex (name.length, OrderDual.toDual name))

theorem rank_injective (groups : List Group) : Function.Injective (rank groups) := by
  intro a b same
  have inner := congrArg (fun r => (ofLex r).2) same
  exact congrArg (fun r => OrderDual.ofDual (ofLex r).2) inner

theorem outranks_iff_rank : Outranks groups a b ↔ rank groups b < rank groups a := by
  simp only [Outranks, rank, Prod.Lex.toLex_lt_toLex, OrderDual.toDual_lt_toDual,
    eq_comm (a := uses groups a), eq_comm (a := a.length)]

theorem outranks_or (groups : List Group) (different : a ≠ b) :
    Outranks groups a b ∨ Outranks groups b a := by
  simp only [outranks_iff_rank]
  exact ((rank_injective groups).ne different).lt_or_gt.symm

theorem Outranks.trans {c : Text} (ab : Outranks groups a b) (bc : Outranks groups b c) :
    Outranks groups a c := by
  rw [outranks_iff_rank] at *
  exact lt_trans bc ab

theorem not_outranks_self (groups : List Group) (a : Text) : ¬ Outranks groups a a := by
  rw [outranks_iff_rank]
  exact lt_irrefl _

/-- **The order is strict and total.** -/
theorem isStrictTotalOrder_outranks (groups : List Group) :
    IsStrictTotalOrder Text (Outranks groups) where
  irrefl := not_outranks_self groups
  trans _ _ _ := Outranks.trans
  trichotomous a b notAbove notBelow := by
    by_contra different
    exact (outranks_or groups different).elim notAbove notBelow

/-! ## The better of two names -/

/-- **The better name is kept**, whether it is given first or second. -/
theorem betterName_of_outranks (above : Outranks groups a b) :
    betterName groups a b = a ∧ betterName groups b a = a := by
  simp only [betterName, bne_iff_ne]
  rcases above with more | ⟨used, longer | ⟨long, before⟩⟩
  · simp [more, more.ne, more.ne', more.not_gt]
  · simp [used, longer, longer.ne, longer.ne', longer.not_gt]
  · have first : Text.le a b = true := Text.le_iff.mpr before.asymm
    have second : Text.le b a = false := by
      rw [← Bool.not_eq_true, Text.le_iff, not_not]
      exact before
    simp [used, long, first, second]

theorem betterName_comm (groups : List Group) (a b : Text) :
    betterName groups a b = betterName groups b a := by
  by_cases same : a = b
  · rw [same]
  · rcases outranks_or groups same with above | above
    · rw [(betterName_of_outranks above).1, (betterName_of_outranks above).2]
    · rw [(betterName_of_outranks above).1, (betterName_of_outranks above).2]

/-- The suggestion for two different names is to use the better one. -/
theorem outranks_of_forPair? (different : a ≠ b)
    (found : forPair? threshold groups (a, b) = some s) :
    Outranks groups s.suggested s.current := by
  obtain ⟨basis, -, rfl⟩ := Option.map_eq_some_iff.mp found
  dsimp only
  rcases outranks_or groups different with above | above
  · rw [(betterName_of_outranks above).1, if_pos (beq_self_eq_true a)]
    exact above
  · rw [(betterName_of_outranks above).2, if_neg (by simpa using Ne.symm different)]
    exact above

/-- **Every suggestion is to use a better one of the names for another.** -/
theorem outranks_of_mem (member : s ∈ similarNames threshold groups) :
    s.current ∈ names groups ∧ s.suggested ∈ names groups ∧
      Outranks groups s.suggested s.current := by
  obtain ⟨⟨a, b⟩, pair, found⟩ := List.mem_filterMap.mp member
  have different := Text.ne_of_mem_pairs (nodup_names groups) pair
  obtain ⟨first, second⟩ := Text.mem_of_mem_pairs pair
  have known : s.current ∈ names groups ∧ s.suggested ∈ names groups := by
    rcases (of_forPair?_eq_some found).1 with same | same
    · obtain ⟨rfl, rfl⟩ := Prod.mk.inj same
      exact ⟨first, second⟩
    · obtain ⟨rfl, rfl⟩ := Prod.mk.inj same
      exact ⟨second, first⟩
  exact ⟨known.1, known.2, outranks_of_forPair? different found⟩

/-! ## Following suggestions -/

/-- It is suggested to use the second name for the first. -/
def Suggests (threshold : Float) (groups : List Group) (a b : Text) : Prop :=
  ∃ s ∈ similarNames threshold groups, s.current = a ∧ s.suggested = b

theorem suggests_iff : Suggests threshold groups a b ↔
    (a, b) ∈ (similarNames threshold groups).map fun s => (s.current, s.suggested) := by
  simp only [Suggests, List.mem_map, Prod.mk.injEq]

theorem Suggests.mem (step : Suggests threshold groups a b) : b ∈ names groups := by
  obtain ⟨s, member, -, rfl⟩ := step
  exact (outranks_of_mem member).2.1

theorem Suggests.outranks (step : Suggests threshold groups a b) : Outranks groups b a := by
  obtain ⟨s, member, rfl, rfl⟩ := step
  exact (outranks_of_mem member).2.2

/-- Following suggestions, one comes to better names only. -/
theorem outranks_of_transGen (way : Relation.TransGen (Suggests threshold groups) a b) :
    Outranks groups b a := by
  induction way with
  | single step => exact step.outranks
  | tail _ step ih => exact step.outranks.trans ih

/-- The names that are come to are names of groups, and each is better than all before it. -/
theorem pairwise_of_isChain {path : List Text}
    (way : (a :: path).IsChain (Suggests threshold groups)) :
    (a :: path).Pairwise (fun x y => Outranks groups y x) ∧ ∀ n ∈ path, n ∈ names groups := by
  constructor
  · have : IsTrans Text fun x y => Outranks groups y x := ⟨fun _ _ _ xy yz => yz.trans xy⟩
    rw [← List.isChain_iff_pairwise]
    exact way.imp fun _ _ step => step.outranks
  · induction path generalizing a with
    | nil => simp
    | cons b path ih =>
        obtain ⟨step, rest⟩ := List.isChain_cons_cons.mp way
        exact List.forall_mem_cons.mpr ⟨step.mem, ih rest⟩

/-- **Following suggestions ends**, after at most as many steps as there are names. -/
theorem length_le_of_isChain {path : List Text}
    (way : (a :: path).IsChain (Suggests threshold groups)) :
    path.length ≤ (names groups).length := by
  obtain ⟨ascending, known⟩ := pairwise_of_isChain way
  have nodup : path.Nodup := by
    refine (List.pairwise_cons.mp ascending).2.imp ?_
    rintro x _ above rfl
    exact not_outranks_self groups x above
  exact (nodup.subperm known).length_le

/-! ## The best name -/

/-- The name is better than all others. -/
def IsBest (groups : List Group) (top : Text) : Prop :=
  top ∈ names groups ∧ ∀ n ∈ names groups, n ≠ top → Outranks groups top n

theorem exists_isBest (some_ : names groups ≠ []) : ∃ top, IsBest groups top := by
  have nonempty : (names groups).toFinset.Nonempty := List.toFinset_nonempty_iff _ |>.mpr some_
  obtain ⟨top, member, greatest⟩ := (names groups).toFinset.exists_max_image (rank groups) nonempty
  refine ⟨top, List.mem_toFinset.mp member, fun n known other => ?_⟩
  rw [outranks_iff_rank]
  exact (greatest n (List.mem_toFinset.mpr known)).lt_of_ne ((rank_injective groups).ne other)

/-- **Suggestions never go in circles.**  They all ascend in one strict total order of names.  So no
way along suggestions comes back to where it began, every way ends, and the best name, which there
is if there are names at all, is kept. -/
theorem similarNames_ascend (threshold : Float) (groups : List Group) :
    IsStrictTotalOrder Text (Outranks groups) ∧
    (∀ s ∈ similarNames threshold groups, s.current ∈ names groups ∧ s.suggested ∈ names groups ∧
      Outranks groups s.suggested s.current) ∧
    (∀ a, ¬ Relation.TransGen (Suggests threshold groups) a a) ∧
    (∀ a path, (a :: path).IsChain (Suggests threshold groups) →
      path.length ≤ (names groups).length) ∧
    (names groups ≠ [] → ∃ top, IsBest groups top) ∧
    ∀ top, IsBest groups top → ∀ s ∈ similarNames threshold groups, s.current ≠ top := by
  refine ⟨isStrictTotalOrder_outranks groups, fun s => outranks_of_mem, fun a circle => ?_,
    fun a path => length_le_of_isChain, exists_isBest, ?_⟩
  · exact not_outranks_self groups a (outranks_of_transGen circle)
  · rintro top ⟨-, best⟩ s member rfl
    obtain ⟨-, known, above⟩ := outranks_of_mem member
    by_cases same : s.suggested = s.current
    · rw [same] at above
      exact not_outranks_self groups _ above
    · exact not_outranks_self groups _ (above.trans (best _ known same))

/-- Three names, each of them alike to the next longer one; the outer two are not alike. -/
def planNames : List Group :=
  ["plane".toList, "plan", "planet"].map fun name =>
    { functionality := name, filePath := "a.js", lines := [1] }

theorem similarNames_planNames :
    (similarNames 0.75 planNames).map (fun s => (s.current, s.suggested)) =
      [("plan".toList, "plane".toList), ("plane".toList, "planet".toList)] := by
  decide +kernel

/-- The suggestions lead from the shortest name over the next one to the longest, which is the best
one, and end there. -/
theorem similarNames_ascend_plan :
    [("plan" : Text), "plane", "planet"].IsChain (Suggests 0.75 planNames) ∧
      IsBest planNames "planet" ∧ Outranks planNames "plane" "plan" ∧
      ¬ Relation.TransGen (Suggests 0.75 planNames) "plan" "plan" ∧
      2 ≤ (names planNames).length ∧
      ∀ s ∈ similarNames 0.75 planNames, s.current ≠ "planet".toList := by
  have first : Suggests 0.75 planNames "plan" "plane" := by
    rw [suggests_iff, similarNames_planNames]
    simp
  have second : Suggests 0.75 planNames "plane" "planet" := by
    rw [suggests_iff, similarNames_planNames]
    simp
  have way : [("plan" : Text), "plane", "planet"].IsChain (Suggests 0.75 planNames) :=
    .cons_cons first (.cons_cons second (.singleton _))
  have best : IsBest planNames "planet" := by
    unfold IsBest
    decide
  obtain ⟨-, ascends, straight, ends_, -, kept⟩ := similarNames_ascend 0.75 planNames
  obtain ⟨s, member, current, suggested⟩ := first
  have above := (ascends s member).2.2
  rw [current, suggested] at above
  exact ⟨way, best, above, straight _, ends_ _ _ way, kept _ best⟩

/-! ## The order of the groups -/

theorem names_perm (perm : groups.Perm groups') : (names groups).Perm (names groups') :=
  Text.distinct_perm ((perm.map _).filter _)

theorem uses_of_perm (perm : groups.Perm groups') (name : Text) :
    uses groups name = uses groups' name :=
  perm.countP_eq _

theorem betterName_of_perm (perm : groups.Perm groups') (a b : Text) :
    betterName groups a b = betterName groups' a b := by
  rw [betterName, betterName, uses_of_perm perm, uses_of_perm perm]

theorem pairBasis?_comm (threshold : Float) (a b : Text) :
    pairBasis? threshold a b = pairBasis? threshold b a := by
  have alike : likeness a b = likeness b a := by
    simp only [likeness]
    rw [similarity_comm a, similarity_comm (normalize a)]
  rw [pairBasis?, pairBasis?, alike, BEq.comm (a := normalize a)]

/-- **A pair turned round gets the same suggestion.** -/
theorem forPair?_swap (threshold : Float) (groups : List Group) (a b : Text) :
    forPair? threshold groups (a, b) = forPair? threshold groups (b, a) := by
  simp only [forPair?]
  rw [pairBasis?_comm threshold a b, betterName_comm groups a b]
  congr 1
  funext basis
  -- The name that is not kept is the other one, whichever of them is asked about first.
  rcases betterName_eq_or groups b a with first | second
  · rw [first]
    by_cases same : b = a <;> simp [same]
  · rw [second]
    by_cases same : a = b <;> simp [same]

/-- **Suggestions do not depend on the order of the groups**: rearranged groups get the same
suggestions, which may come in another order. -/
theorem similarNames_rearranged (threshold : Float) (perm : groups.Perm groups') :
    (similarNames threshold groups).Perm (similarNames threshold groups') := by
  have pairs := Text.corresponds_pairs (names_perm perm)
  have alike (p : Text × Text) : forPair? threshold groups p = forPair? threshold groups' p := by
    simp only [forPair?, betterName_of_perm perm]
  have each : Corresponds Eq (similarNames threshold groups) (similarNames threshold groups') := by
    apply pairs.filterMap
    rintro p ⟨a, b⟩ turned
    have same : forPair? threshold groups p = forPair? threshold groups' (a, b) := by
      rcases turned with rfl | rfl
      · exact alike _
      · exact (alike _).trans (forPair?_swap threshold groups' b a)
    rw [same]
    cases forPair? threshold groups' (a, b) with
    | none => exact .none
    | some s => exact .some rfl
  exact each.perm

/-- In reverse the same two suggestions come in the other order. -/
theorem similarNames_rearranged_plan :
    (similarNames 0.75 planNames.reverse).map (fun s => (s.current, s.suggested)) =
        [("plane".toList, "planet".toList), ("plan".toList, "plane".toList)] ∧
      (similarNames 0.75 planNames.reverse).Perm (similarNames 0.75 planNames) := by
  constructor
  · decide +kernel
  · exact similarNames_rearranged 0.75 (List.reverse_perm planNames)

end CodeAtlas.Naming
