/-
# Proofs.Correspondence -- lists whose members correspond one to one

Two lists correspond for a relation if the members of the one can be put in an order in which they
are related to those of the other, each to the one at its own position (`Corresponds`).  A list
corresponds to its rearrangements, and what is done member by member keeps a correspondence:
`filterMap`, `filter`, `append`, `flatten`.

Two operations of this library look at the order of a list, and both do so without consequence.  The
pairs of a rearranged list are the pairs of the list, some of them turned round
(`corresponds_pairs`).  What is collected under keys from a rearranged list is under the same keys, in
another order (`corresponds_collected`).
-/
import Mathlib.Data.List.Perm.Basic
import CodeAtlas.Proofs.Entries

namespace CodeAtlas

set_option autoImplicit false

/-- The members of two lists correspond one to one, in some order. -/
def Corresponds {α β : Type} (R : α → β → Prop) (l : List α) (l' : List β) : Prop :=
  Relation.Comp (List.Forall₂ R) List.Perm l l'

namespace Corresponds

variable {α β γ δ : Type} {R : α → β → Prop} {S : γ → δ → Prop} {l : List α} {l' : List β}

theorem of_forall₂ (related : List.Forall₂ R l l') : Corresponds R l l' :=
  ⟨l', related, .refl l'⟩

theorem of_perm {R : α → α → Prop} (refl : ∀ a, R a a) {l l' : List α} (perm : l.Perm l') :
    Corresponds R l l' :=
  ⟨l, List.forall₂_same.mpr fun a _ => refl a, perm⟩

/-- Lists whose members correspond as equals are rearrangements of each other. -/
theorem perm {l l' : List α} (corr : Corresponds Eq l l') : l.Perm l' := by
  obtain ⟨m, same, perm⟩ := corr
  rw [List.forall₂_eq_eq_eq] at same
  exact same ▸ perm

theorem forall₂_trans {R : α → α → Prop} (closed : ∀ a b c, R a b → R b c → R a c)
    {l m n : List α} (first : List.Forall₂ R l m) (second : List.Forall₂ R m n) :
    List.Forall₂ R l n := by
  induction first generalizing n with
  | nil => simpa using second
  | cons ab _ ih =>
      cases second with
      | cons bc rest => exact .cons (closed _ _ _ ab bc) (ih rest)

theorem trans {R : α → α → Prop} (closed : ∀ a b c, R a b → R b c → R a c) {l l' l'' : List α}
    (first : Corresponds R l l') (second : Corresponds R l' l'') : Corresponds R l l'' := by
  obtain ⟨m, related, perm⟩ := first
  obtain ⟨m', related', perm'⟩ := second
  -- A rearrangement can be made after the members have been related as well as before.
  have turned : Relation.Comp List.Perm (List.Forall₂ R) m m' := ⟨l', perm, related'⟩
  rw [← List.forall₂_comp_perm_eq_perm_comp_forall₂] at turned
  obtain ⟨n, related'', perm''⟩ := turned
  exact ⟨n, forall₂_trans closed related related'', perm''.trans perm'⟩

theorem length_eq (corr : Corresponds R l l') : l.length = l'.length := by
  obtain ⟨m, related, perm⟩ := corr
  exact related.length_eq.trans perm.length_eq

theorem append {k : List α} {k' : List β} (first : Corresponds R l l')
    (second : Corresponds R k k') : Corresponds R (l ++ k) (l' ++ k') := by
  obtain ⟨m, related, perm⟩ := first
  obtain ⟨m', related', perm'⟩ := second
  exact ⟨m ++ m', List.rel_append related related', perm.append perm'⟩

theorem cons {a : α} {b : β} (head : R a b) (tail : Corresponds R l l') :
    Corresponds R (a :: l) (b :: l') :=
  append (of_forall₂ (.cons head .nil)) tail

/-- Lists that correspond one by one correspond as a whole. -/
theorem flatten {ls : List (List α)} {ls' : List (List β)}
    (each : List.Forall₂ (Corresponds R) ls ls') : Corresponds R ls.flatten ls'.flatten := by
  induction each with
  | nil => exact of_forall₂ .nil
  | cons here _ ih => exact append here ih

theorem filterMap {f : α → Option γ} {g : β → Option δ} (corr : Corresponds R l l')
    (keeps : ∀ a b, R a b → Option.Rel S (f a) (g b)) :
    Corresponds S (l.filterMap f) (l'.filterMap g) := by
  obtain ⟨m, related, perm⟩ := corr
  exact ⟨m.filterMap g, List.rel_filterMap (fun {a b} => keeps a b) related, perm.filterMap g⟩

theorem map {f : α → γ} {g : β → δ} (corr : Corresponds R l l')
    (keeps : ∀ a b, R a b → S (f a) (g b)) : Corresponds S (l.map f) (l'.map g) := by
  rw [← List.filterMap_eq_map, ← List.filterMap_eq_map]
  exact corr.filterMap fun a b related => .some (keeps a b related)

theorem filter {p : α → Bool} {q : β → Bool} (corr : Corresponds R l l')
    (same : ∀ a b, R a b → p a = q b) : Corresponds R (l.filter p) (l'.filter q) := by
  rw [← List.filterMap_eq_filter, ← List.filterMap_eq_filter]
  apply corr.filterMap
  intro a b related
  by_cases kept : p a = true
  · simpa [Option.guard, kept, ← same a b related] using Option.Rel.some related
  · simp [Option.guard, kept, ← same a b related]

/-- What corresponding members are rearrangements of is, put together, one rearrangement. -/
theorem flatMap_perm {f : α → List γ} {g : β → List γ} (corr : Corresponds R l l')
    (each : ∀ a b, R a b → (f a).Perm (g b)) : (l.flatMap f).Perm (l'.flatMap g) := by
  obtain ⟨m, related, perm⟩ := corr
  suffices together : (l.flatMap f).Perm (m.flatMap g) from together.trans (perm.flatMap_right g)
  clear perm
  induction related with
  | nil => exact .nil
  | cons here _ ih => exact (each _ _ here).append ih

end Corresponds

/-! ## Pairs -/

namespace Text

variable {α : Type} {l l' : List α}

/-- **The pairs of a rearranged list** are those of the list, some of them turned round. -/
theorem corresponds_pairs (perm : l.Perm l') :
    Corresponds (fun p q => p = q ∨ p = q.swap) (pairs l) (pairs l') := by
  have same (p : α × α) : p = p ∨ p = p.swap := .inl rfl
  induction perm with
  | nil => exact .of_forall₂ .nil
  | cons a perm ih =>
      rw [pairs, pairs]
      exact .append (.of_perm same (perm.map _)) ih
  | swap a b l =>
      simp only [pairs, List.map_cons, List.cons_append]
      apply Corresponds.cons
      · exact .inr rfl
      · apply Corresponds.of_perm same
        rw [← List.append_assoc, ← List.append_assoc]
        exact List.perm_append_comm.append_right _
  | trans _ _ ih ih' =>
      refine Corresponds.trans (fun p q r pq qr => ?_) ih ih'
      rcases pq with rfl | rfl <;> rcases qr with rfl | rfl <;> simp

end Text

/-! ## Maps -/

namespace Entries

variable {α γ : Type} {e e' : Entries α}

/-- The order of the pairs does not matter for a look-up. -/
theorem get?_of_perm (distinct : e.keys.Nodup) (perm : e.Perm e') (key : Text) :
    e.get? key = e'.get? key := by
  have distinct' : e'.keys.Nodup := (perm.map Prod.fst).nodup_iff.mp distinct
  apply Option.ext
  intro a
  rw [get?_eq_some_iff distinct, get?_eq_some_iff distinct', perm.mem_iff]

/-- The keys of what is collected are distinct. -/
theorem nodup_keys_collected (key : γ → Text) (value : γ → α) (l : List γ) :
    (collected key value l).keys.Nodup := by
  rw [keys_collected]
  exact Text.nodup_distinct _

/-- What is collected is, under every key, what the members with that key give. -/
theorem collected_eq (key : γ → Text) (value : γ → α) (l : List γ) :
    collected key value l =
      (Text.distinct (l.map key)).map fun k => (k, (l.filter (key · == k)).map value) := by
  have each : ∀ p ∈ collected key value l, (p.1, (l.filter (key · == p.1)).map value) = p := by
    intro p member
    have found := (get?_eq_some_iff (nodup_keys_collected key value l)).mpr member
    rw [get?_collected] at found
    dsimp only at found
    split at found
    · cases found
    · rw [Option.some.inj found]
  rw [← keys_collected key value, keys, List.map_map]
  exact ((List.map_congr_left each).trans (List.map_id _)).symm

/-- **What is collected from a rearranged list** is under the same keys, each with a rearrangement of
the same values. -/
theorem corresponds_collected (key : γ → Text) (value : γ → α) {l l' : List γ} (perm : l.Perm l') :
    Corresponds (fun e e' => e.1 = e'.1 ∧ e.2.Perm e'.2) (collected key value l)
      (collected key value l') := by
  have keys : (Text.distinct (l.map key)).Perm (Text.distinct (l'.map key)) :=
    Text.distinct_perm (perm.map key)
  rw [collected_eq, collected_eq]
  apply Corresponds.map (Corresponds.of_perm (fun _ => rfl) keys)
  rintro k _ rfl
  exact ⟨rfl, (perm.filter _).map value⟩

end Entries

end CodeAtlas
