/-
# Proofs.Text.Order -- ascending lists of texts

`Text.le` is the lexicographic order of lists of characters (`le_iff`), so it is linear.  A list
without repetitions is put in strictly ascending order by `sort` (`pairwise_sort`), and such a list
is determined by its members (`eq_of_pairwise_of_mem_iff`).  `distinct` keeps the members and drops
the repetitions (`mem_distinct`, `nodup_distinct`); of such a list every two members are one pair
(`filter_joins_pairs`).
-/
import Mathlib.Data.Char
import Mathlib.Data.List.Induction
import Mathlib.Data.List.Lex
import Mathlib.Data.List.Sort
import CodeAtlas.Text.Basic

namespace CodeAtlas.Text

set_option autoImplicit false

/-! ## The order -/

/-- The order of texts is the lexicographic one. -/
theorem le_iff {s t : Text} : le s t = true ↔ ¬ t < s := by
  induction s generalizing t with
  | nil => simp [le]
  | cons a s ih =>
      cases t with
      | nil => simp [le]
      | cons b t =>
          simp only [le, Bool.or_eq_true, Bool.and_eq_true, decide_eq_true_eq, beq_iff_eq, ih,
            List.cons_lt_cons_iff]
          rcases lt_trichotomy a b with less | rfl | more
          · have forward : a.toNat < b.toNat := less
            simp [forward, less.asymm, less.ne']
          · simp
          · have backward : ¬ a.toNat < b.toNat := more.asymm
            simp [backward, more, more.ne']

theorem trans_le {a b c : Text} (ab : le a b = true) (bc : le b c = true) : le a c = true := by
  rw [le_iff] at *
  exact not_lt.mpr (le_trans (not_lt.mp ab) (not_lt.mp bc))

theorem total_le (a b : Text) : (le a b || le b a) = true := by
  rw [Bool.or_eq_true, le_iff, le_iff, not_lt, not_lt]
  exact le_total a b

/-! ## Sorting -/

theorem sort_perm (ts : List Text) : (sort ts).Perm ts := List.mergeSort_perm ts le

@[simp] theorem mem_sort {t : Text} {ts : List Text} : t ∈ sort ts ↔ t ∈ ts :=
  (sort_perm ts).mem_iff

theorem pairwise_le_sort (ts : List Text) : (sort ts).Pairwise fun a b => le a b = true :=
  @List.pairwise_mergeSort _ le (fun _ _ _ => trans_le) total_le ts

/-- The order in which texts come does not matter for sorting. -/
theorem sort_congr {ts us : List Text} (perm : ts.Perm us) : sort ts = sort us := by
  have perm' : (sort ts).Perm (sort us) := (sort_perm ts).trans (perm.trans (sort_perm us).symm)
  refine perm'.eq_of_pairwise (fun a b _ _ ab ba => ?_) (pairwise_le_sort ts) (pairwise_le_sort us)
  rw [le_iff] at ab ba
  exact le_antisymm (not_lt.mp ab) (not_lt.mp ba)

/-- Distinct texts are put in strictly ascending order. -/
theorem pairwise_sort {ts : List Text} (nodup : ts.Nodup) : (sort ts).Pairwise (· < ·) := by
  have different : (sort ts).Nodup := (sort_perm ts).nodup_iff.mpr nodup
  refine ((pairwise_le_sort ts).and different).imp fun {a b} both => ?_
  exact lt_of_le_of_ne (not_lt.mp (le_iff.mp both.1)) both.2

/-- A strictly ascending list is determined by its members. -/
theorem eq_of_pairwise_of_mem_iff {s t : List Text} (hs : s.Pairwise (· < ·))
    (ht : t.Pairwise (· < ·)) (same : ∀ a, a ∈ s ↔ a ∈ t) : s = t := by
  have perm : s.Perm t :=
    (List.perm_ext_iff_of_nodup (hs.imp fun less => less.ne) (ht.imp fun less => less.ne)).mpr same
  exact perm.eq_of_pairwise (fun a b _ _ less less' => absurd less less'.asymm) hs ht

/-! ## Members without repetitions -/

section Distinct

variable {α : Type} [BEq α]

theorem distinct_concat (l : List α) (a : α) :
    distinct (l ++ [a]) = if (distinct l).contains a then distinct l else distinct l ++ [a] := by
  rw [distinct, List.foldl_append]
  rfl

variable [LawfulBEq α]

theorem mem_distinct {l : List α} {a : α} : a ∈ distinct l ↔ a ∈ l := by
  induction l using List.reverseRecOn with
  | nil => simp [distinct]
  | append_singleton l b ih =>
      rw [distinct_concat, List.mem_append, List.mem_singleton]
      split
      · rename_i seen
        rw [List.contains_iff_mem] at seen
        rw [← ih]
        exact ⟨.inl, fun member => member.elim id fun same => same ▸ seen⟩
      · rw [List.mem_append, List.mem_singleton, ih]

theorem nodup_distinct (l : List α) : (distinct l).Nodup := by
  induction l using List.reverseRecOn with
  | nil => exact List.nodup_nil
  | append_singleton l b ih =>
      rw [distinct_concat]
      split
      · exact ih
      · rename_i unseen
        rw [List.contains_iff_mem] at unseen
        exact List.nodup_append.mpr ⟨ih, List.nodup_singleton b, fun a member c same => by
          rw [List.mem_singleton] at same
          exact fun equal => unseen (same ▸ equal ▸ member)⟩

/-- Members that are left out do not change which of the others come first. -/
theorem distinct_filter (p : α → Bool) (l : List α) :
    distinct (l.filter p) = (distinct l).filter p := by
  induction l using List.reverseRecOn with
  | nil => rfl
  | append_singleton l b ih =>
      rw [List.filter_append, distinct_concat]
      cases kept : p b with
      | false => split <;> simp [kept, ih]
      | true =>
          rw [List.filter_singleton, kept, cond_true, distinct_concat, ih]
          have seen : ((distinct l).filter p).contains b = (distinct l).contains b := by
            rw [Bool.eq_iff_iff, List.contains_iff_mem, List.contains_iff_mem, List.mem_filter]
            simp [kept]
          rw [seen]
          split
          · rfl
          · simp [kept]

/-- Of rearranged members, the distinct ones are rearranged, too. -/
theorem distinct_perm {l l' : List α} (perm : l.Perm l') : (distinct l).Perm (distinct l') := by
  rw [List.perm_ext_iff_of_nodup (nodup_distinct l) (nodup_distinct l')]
  intro a
  rw [mem_distinct, mem_distinct, perm.mem_iff]

end Distinct

/-! ## Pairs -/

section Pairs

variable {α β : Type}

theorem mem_of_mem_pairs {l : List α} {p : α × α} (member : p ∈ pairs l) : p.1 ∈ l ∧ p.2 ∈ l := by
  induction l with
  | nil => cases member
  | cons a rest ih =>
      rcases List.mem_append.mp member with first | later
      · obtain ⟨b, inside, rfl⟩ := List.mem_map.mp first
        exact ⟨List.mem_cons_self, List.mem_cons_of_mem _ inside⟩
      · exact (ih later).imp (List.mem_cons_of_mem _) (List.mem_cons_of_mem _)

theorem ne_of_mem_pairs {l : List α} (nodup : l.Nodup) {a b : α} (member : (a, b) ∈ pairs l) :
    a ≠ b := by
  induction l with
  | nil => cases member
  | cons c rest ih =>
      obtain ⟨new, nodup'⟩ := List.nodup_cons.mp nodup
      rcases List.mem_append.mp member with first | later
      · obtain ⟨b', inside, same⟩ := List.mem_map.mp first
        obtain ⟨rfl, rfl⟩ := Prod.mk.inj same
        exact fun equal => new (equal ▸ inside)
      · exact ih nodup' later

/-- Two members are a pair, in one order or the other. -/
theorem mem_pairs_or {l : List α} {a b : α} (ha : a ∈ l) (hb : b ∈ l) (different : a ≠ b) :
    (a, b) ∈ pairs l ∨ (b, a) ∈ pairs l := by
  induction l with
  | nil => cases ha
  | cons c rest ih =>
      rw [pairs, List.mem_append, List.mem_append, List.mem_map, List.mem_map]
      rcases List.mem_cons.mp ha with rfl | ha'
      · have hb' := (List.mem_cons.mp hb).resolve_left (Ne.symm different)
        exact .inl (.inl ⟨b, hb', rfl⟩)
      · rcases List.mem_cons.mp hb with rfl | hb'
        · exact .inr (.inl ⟨a, ha', rfl⟩)
        · exact (ih ha' hb').imp .inr .inr

/-- The pairs of one more member stand with that member at their ends. -/
theorem mem_pairs_concat {l : List α} {z : α} {p : α × α} :
    p ∈ pairs (l ++ [z]) ↔ p ∈ pairs l ∨ ∃ a ∈ l, p = (a, z) := by
  induction l with
  | nil => simp [pairs]
  | cons c rest ih =>
      rw [List.cons_append, pairs, pairs, List.mem_append, List.mem_append, ih, List.map_append,
        List.mem_append, List.map_singleton, List.mem_singleton, List.exists_mem_cons_iff]
      tauto

/-- **A pair with the last member comes behind all others of its first member.** -/
theorem exists_pairs_concat {l : List α} {z : α} (nodup : (l ++ [z]).Nodup) {a : α} (member : a ∈ l) :
    ∃ early late, pairs (l ++ [z]) = early ++ (a, z) :: late ∧ (a, z) ∉ early ∧
      ∀ b ∈ l, b ≠ a → (a, b) ∈ early ∨ (b, a) ∈ early := by
  induction l with
  | nil => cases member
  | cons c rest ih =>
      obtain ⟨new, nodup'⟩ := List.nodup_cons.mp (List.cons_append ▸ nodup)
      rw [List.mem_append, List.mem_singleton, not_or] at new
      rw [List.cons_append, pairs]
      by_cases first : c = a
      · subst first
        refine ⟨rest.map (c, ·), pairs (rest ++ [z]), by simp, fun inside => ?_, fun b known other => ?_⟩
        · obtain ⟨b, known, same⟩ := List.mem_map.mp inside
          obtain ⟨-, rfl⟩ := Prod.mk.inj same
          exact List.disjoint_of_nodup_append nodup' known List.mem_cons_self
        · exact .inl (List.mem_map_of_mem ((List.mem_cons.mp known).resolve_left other))
      · have later := (List.mem_cons.mp member).resolve_left (Ne.symm first)
        obtain ⟨early, late, whole, absent, others⟩ := ih nodup' later
        refine ⟨(rest ++ [z]).map (c, ·) ++ early, late, by rw [whole, List.append_assoc],
          fun inside => ?_, fun b known other => ?_⟩
        · rcases List.mem_append.mp inside with row | below
          · obtain ⟨b, -, same⟩ := List.mem_map.mp row
            exact first (Prod.mk.inj same).1
          · exact absent below
        · rcases List.mem_cons.mp known with rfl | known'
          · exact .inr (List.mem_append_left _ (List.mem_map_of_mem (List.mem_append_left _ later)))
          · exact (others b known' other).imp (List.mem_append_right _) (List.mem_append_right _)

theorem pairs_map (f : α → β) (l : List α) :
    pairs (l.map f) = (pairs l).map (Prod.map f f) := by
  induction l with
  | nil => rfl
  | cons a rest ih => simp [pairs, ih, Function.comp_def]

/-- The pair is that of these two, in one order or the other. -/
def joins [BEq α] (a b : α) (p : α × α) : Bool := p == (a, b) || p == (b, a)

theorem joins_iff [BEq α] [LawfulBEq α] {a b x y : α} :
    joins a b (x, y) = true ↔ x = a ∧ y = b ∨ x = b ∧ y = a := by
  simp only [joins, Bool.or_eq_true, beq_iff_eq, Prod.mk.injEq]

theorem joins_swap [BEq α] [LawfulBEq α] (a b x y : α) : joins a b (y, x) = joins a b (x, y) := by
  rw [Bool.eq_iff_iff, joins_iff, joins_iff]
  tauto

theorem joins_comm [BEq α] (a b : α) : joins a b = joins b a :=
  funext fun _ => Bool.or_comm _ _

theorem mem_of_joins [BEq α] [LawfulBEq α] {l : List α} {a b : α} {p : α × α}
    (joined : joins a b p = true) (ha : a ∈ l) (hb : b ∈ l) : p.1 ∈ l ∧ p.2 ∈ l := by
  obtain ⟨rfl, rfl⟩ | ⟨rfl, rfl⟩ := joins_iff.mp joined
  · exact ⟨ha, hb⟩
  · exact ⟨hb, ha⟩

/-- **Of distinct members, every two are one pair.** -/
theorem filter_joins_pairs [BEq α] [LawfulBEq α] {l : List α} (nodup : l.Nodup) {a b : α}
    (member : (a, b) ∈ pairs l) : (pairs l).filter (joins a b) = [(a, b)] := by
  induction l with
  | nil => cases member
  | cons c rest ih =>
      obtain ⟨new, nodup'⟩ := List.nodup_cons.mp nodup
      rw [pairs, List.filter_append]
      rcases List.mem_append.mp member with first | later
      · obtain ⟨b', inside, same⟩ := List.mem_map.mp first
        obtain ⟨rfl, rfl⟩ := Prod.mk.inj same
        have different := ne_of_mem_pairs nodup member
        have here : (rest.map (c, ·)).filter (joins c b') = [(c, b')] := by
          have joined : joins c b' ∘ (c, ·) = (· == b') := by
            funext x
            rw [Bool.eq_iff_iff]
            simp [joins, different]
          rw [List.filter_map, joined, List.filter_beq, List.count_eq_one_of_mem nodup' inside]
          rfl
        have none_ : (pairs rest).filter (joins c b') = [] := by
          rw [List.filter_eq_nil_iff]
          intro p inside' joined
          obtain ⟨left, right⟩ := mem_of_mem_pairs inside'
          simp only [joins, Bool.or_eq_true, beq_iff_eq] at joined
          rcases joined with rfl | rfl
          · exact new left
          · exact new right
        rw [here, none_, List.append_nil]
      · obtain ⟨left, right⟩ := mem_of_mem_pairs later
        have none_ : (rest.map (c, ·)).filter (joins a b) = [] := by
          rw [List.filter_eq_nil_iff]
          intro p inside joined
          obtain ⟨x, -, rfl⟩ := List.mem_map.mp inside
          exact new (mem_of_joins joined left right).1
        rw [none_, List.nil_append, ih nodup' later]

theorem countP_joins_pairs [BEq α] [LawfulBEq α] {l : List α} (nodup : l.Nodup) {a b : α}
    (ha : a ∈ l) (hb : b ∈ l) (different : a ≠ b) : (pairs l).countP (joins a b) = 1 := by
  rw [List.countP_eq_length_filter]
  rcases mem_pairs_or ha hb different with pair | pair
  · rw [filter_joins_pairs nodup pair, List.length_singleton]
  · rw [joins_comm, filter_joins_pairs nodup pair, List.length_singleton]

end Pairs

end CodeAtlas.Text
