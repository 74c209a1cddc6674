/-
# Proofs.Entries -- maps by their look-ups

A map is used through `get?`.  `alter` changes the look-up of its own key and no other
(`get?_alter`), and so do `set` and `erase` (`get?_set`, `get?_erase`).  `alter` keeps the keys
without repetitions (`nodup_keys_alter`), which every map that is built by it has.  With such keys
the pairs of a map are its look-ups (`get?_eq_some_iff`).

A map that collects the members of a list under keys has under each key the members of that key
(`get?_collected`), and the keys in order of first use (`keys_collected`).
-/
import Mathlib.Data.List.Nodup
import CodeAtlas.Entries
import CodeAtlas.Proofs.Text.Order

namespace CodeAtlas.Entries

set_option autoImplicit false

variable {α β : Type}

@[simp] theorem get?_nil (key : Text) : get? ([] : Entries α) key = none := rfl

theorem get?_cons (k key : Text) (a : α) (rest : Entries α) :
    get? ((k, a) :: rest) key = if key = k then some a else get? rest key := by
  rw [get?, List.lookup_cons, get?]
  by_cases same : key = k
  · simp [same]
  · simp [same, beq_eq_false_iff_ne.mpr same]

@[simp] theorem keys_nil : keys ([] : Entries α) = [] := rfl

@[simp] theorem keys_cons (e : Text × α) (rest : Entries α) :
    keys (e :: rest) = e.1 :: keys rest := rfl

theorem get?_eq_none_iff {e : Entries α} {key : Text} : e.get? key = none ↔ key ∉ e.keys := by
  induction e with
  | nil => simp
  | cons p rest ih =>
      rw [get?_cons, keys_cons, List.mem_cons, not_or]
      split
      · rename_i same
        simp [same]
      · rename_i other
        simp [other, ih]

theorem mem_of_get? {e : Entries α} {key : Text} {a : α} (found : e.get? key = some a) :
    (key, a) ∈ e := by
  induction e with
  | nil => simp at found
  | cons p rest ih =>
      obtain ⟨k, b⟩ := p
      rw [get?_cons] at found
      split at found
      · rename_i same
        cases found
        exact same ▸ List.mem_cons_self
      · exact List.mem_cons_of_mem _ (ih found)

/-- With distinct keys the pairs of a map are its look-ups. -/
theorem get?_eq_some_iff {e : Entries α} (nodup : e.keys.Nodup) {key : Text} {a : α} :
    e.get? key = some a ↔ (key, a) ∈ e := by
  refine ⟨mem_of_get?, fun member => ?_⟩
  induction e with
  | nil => cases member
  | cons p rest ih =>
      obtain ⟨k, b⟩ := p
      rw [keys_cons, List.nodup_cons] at nodup
      rw [get?_cons]
      rcases List.mem_cons.mp member with same | later
      · cases same
        rw [if_pos rfl]
      · have other : key ≠ k := by
          rintro rfl
          exact nodup.1 (List.mem_map.mpr ⟨(key, a), later, rfl⟩)
        rw [if_neg other, ih nodup.2 later]

theorem get?_map (e : Entries α) (f : Text × α → β) (key : Text) :
    get? (e.map fun p => (p.1, f p)) key = (e.get? key).map fun a => f (key, a) := by
  induction e with
  | nil => rfl
  | cons p rest ih =>
      rw [List.map_cons, get?_cons, get?_cons, ih]
      split
      · rename_i same
        rw [same]
        rfl
      · rfl

theorem keys_map (e : Entries α) (f : Text × α → β) :
    keys (e.map fun p => (p.1, f p)) = e.keys := by
  simp [keys, Function.comp_def]

/-! ## Changing one key -/

theorem alter_cons (k key : Text) (a : α) (rest : Entries α) (f : Option α → α) :
    alter ((k, a) :: rest) key f =
      if k = key then (k, f (some a)) :: rest else (k, a) :: alter rest key f := by
  by_cases same : k = key <;> simp [alter, same]

/-- Altering a key changes its own look-up and no other. -/
theorem get?_alter (e : Entries α) (key other : Text) (f : Option α → α) :
    (e.alter key f).get? other = if other = key then some (f (e.get? key)) else e.get? other := by
  induction e with
  | nil => rw [alter, get?_cons, get?_nil, get?_nil]
  | cons p rest ih =>
      obtain ⟨k, a⟩ := p
      rw [alter_cons]
      split
      · rename_i same
        subst same
        simp only [get?_cons, if_true]
        split <;> rfl
      · rename_i different
        rw [get?_cons, ih, get?_cons, get?_cons, if_neg (Ne.symm different)]
        by_cases here : other = k
        · subst here
          simp [different]
        · simp [here]

theorem keys_alter (e : Entries α) (key : Text) (f : Option α → α) :
    (e.alter key f).keys = if key ∈ e.keys then e.keys else e.keys ++ [key] := by
  induction e with
  | nil => rfl
  | cons p rest ih =>
      obtain ⟨k, a⟩ := p
      rw [alter_cons]
      by_cases same : k = key
      · simp [same]
      · rw [if_neg same, keys_cons, ih, keys_cons]
        by_cases known : key ∈ keys rest
        · simp [known]
        · simp [known, Ne.symm same]

/-- Setting a key changes its own look-up and no other. -/
theorem get?_set (e : Entries α) (key other : Text) (a : α) :
    (e.set key a).get? other = if other = key then some a else e.get? other :=
  get?_alter e key other _

/-- A key that is there keeps its place. -/
theorem keys_set_of_mem {e : Entries α} {key : Text} (known : key ∈ e.keys) (a : α) :
    (e.set key a).keys = e.keys := by
  rw [set, keys_alter, if_pos known]

/-- Erasing a key takes away its own look-up and no other. -/
theorem get?_erase (e : Entries α) (key other : Text) :
    (e.erase key).get? other = if other = key then none else e.get? other := by
  induction e with
  | nil => simp [erase]
  | cons p rest ih =>
      obtain ⟨k, a⟩ := p
      rw [erase] at ih
      rw [erase, List.filter_cons]
      by_cases gone : k = key
      · subst gone
        simp only [bne_self_eq_false, Bool.false_eq_true, if_false, ih, get?_cons]
        split <;> rfl
      · simp only [bne_iff_ne, ne_eq, gone, not_false_eq_true, if_true, get?_cons, ih]
        by_cases here : other = k
        · subst here
          simp [gone]
        · simp [here]

theorem not_mem_of_nodup_append {e e' : Entries α} {p : Text × α}
    (nodup : (keys (e ++ p :: e')).Nodup) : p.1 ∉ e.keys := by
  rw [keys, List.map_append, List.map_cons, List.nodup_append] at nodup
  exact fun member => nodup.2.2 p.1 member p.1 List.mem_cons_self rfl

/-- A new key comes at the end. -/
theorem set_of_not_mem {e : Entries α} {key : Text} (new : key ∉ e.keys) (a : α) :
    e.set key a = e ++ [(key, a)] := by
  induction e with
  | nil => rfl
  | cons p rest ih =>
      rw [keys_cons, List.mem_cons, not_or] at new
      rw [set, alter_cons, if_neg (Ne.symm new.1), List.cons_append]
      exact congrArg _ (ih new.2)

theorem nodup_keys_alter {e : Entries α} (nodup : e.keys.Nodup) (key : Text) (f : Option α → α) :
    (e.alter key f).keys.Nodup := by
  rw [keys_alter]
  split
  · exact nodup
  · rename_i unknown
    rw [List.nodup_append]
    refine ⟨nodup, List.nodup_singleton key, fun k member k' single => ?_⟩
    rw [List.mem_singleton] at single
    rintro rfl
    exact unknown (single ▸ member)

/-- A pair that is there after altering a key is at the key, or was there before. -/
theorem of_mem_alter {e : Entries α} (nodup : e.keys.Nodup) {key : Text} {f : Option α → α}
    {p : Text × α} (member : p ∈ e.alter key f) : p = (key, f (e.get? key)) ∨ p ∈ e := by
  obtain ⟨k, a⟩ := p
  have found := (get?_eq_some_iff (nodup_keys_alter nodup key f)).mpr member
  rw [get?_alter] at found
  split at found
  · rename_i here
    rw [here, ← Option.some.inj found]
    exact .inl rfl
  · exact .inr (mem_of_get? found)

/-! ## Collecting under keys -/

section Collected

variable {γ : Type} (key : γ → Text) (value : γ → α)

/-- Every member's value at the end of the list of its key. -/
def collected (l : List γ) : Entries (List α) :=
  l.foldl (fun e c => Entries.push e (key c) (value c)) []

theorem collected_concat (l : List γ) (c : γ) :
    collected key value (l ++ [c]) = (collected key value l).push (key c) (value c) := by
  rw [collected, List.foldl_append]
  rfl

/-- **Under a key are the values of the members with that key**, in their order. -/
theorem get?_collected (l : List γ) (k : Text) :
    (collected key value l).get? k =
      let values := (l.filter (key · == k)).map value
      if values = [] then none else some values := by
  induction l using List.reverseRecOn with
  | nil => rfl
  | append_singleton l c ih =>
      dsimp only at ih ⊢
      rw [collected_concat, push, get?_alter, List.filter_append, List.map_append]
      by_cases same : k = key c
      · subst same
        rw [if_pos rfl, ih]
        split
        · rename_i none_
          simp [none_]
        · simp
      · have other : [c].filter (key · == k) = [] := by simp [Ne.symm same]
        rw [if_neg same, ih, other, List.map_nil, List.append_nil]

/-- The keys are in the order of their first members. -/
theorem keys_collected (l : List γ) : (collected key value l).keys = Text.distinct (l.map key) := by
  induction l using List.reverseRecOn with
  | nil => rfl
  | append_singleton l c ih =>
      rw [collected_concat, push, keys_alter, ih, List.map_append, List.map_singleton,
        Text.distinct_concat]
      simp only [List.contains_iff_mem]

end Collected

end CodeAtlas.Entries
