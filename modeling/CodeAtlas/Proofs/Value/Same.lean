/-
# Proofs.Value.Same -- when two values are the same

Equality of values can be decided (`agrees_iff`), so that what is read from a fixed text can be
compared with what was written.

Two values are the *same* (`Same`) when they differ at most in the order of the keys of their
tables: what is looked up in the one is the same as what is looked up in the other.  So a table is
the same as one in which a key has been set or erased exactly if it is so at that key, and the same
as the table before at all others (`table_set_iff`, `table_erase_iff`).
-/
import Mathlib.Data.List.Forall2
import CodeAtlas.Proofs.Entries
import CodeAtlas.Value.Basic

namespace CodeAtlas.Value

set_option autoImplicit false

/-! ## Equality -/

mutual

def agrees : Value → Value → Bool
  | .null, .null => true
  | .bool a, .bool b => a == b
  | .int m, .int n => m == n
  | .float x, .float y => x == y
  | .text s, .text t => s == t
  | .moment m, .moment n => m == n
  | .list vs, .list ws => allAgree vs ws
  | .table ms, .table ns => membersAgree ms ns
  | _, _ => false

def allAgree : List Value → List Value → Bool
  | [], [] => true
  | v :: vs, w :: ws => agrees v w && allAgree vs ws
  | _, _ => false

def membersAgree : List (Text × Value) → List (Text × Value) → Bool
  | [], [] => true
  | (k, v) :: ms, (l, w) :: ns => k == l && agrees v w && membersAgree ms ns
  | _, _ => false

end

mutual

theorem agrees_iff : ∀ {v w : Value}, agrees v w = true ↔ v = w
  | .null, w => by cases w <;> simp [agrees]
  | .bool _, w => by cases w <;> simp [agrees]
  | .int _, w => by cases w <;> simp [agrees]
  | .float _, w => by cases w <;> simp [agrees]
  | .text _, w => by cases w <;> simp [agrees]
  | .moment _, w => by cases w <;> simp [agrees]
  | .list vs, w => by
      cases w with
      | list ws => rw [agrees, allAgree_iff, list.injEq]
      | _ => simp [agrees]
  | .table ms, w => by
      cases w with
      | table ns => rw [agrees, membersAgree_iff, table.injEq]
      | _ => simp [agrees]

theorem allAgree_iff : ∀ {vs ws : List Value}, allAgree vs ws = true ↔ vs = ws
  | [], ws => by cases ws <;> simp [allAgree]
  | v :: vs, ws => by
      cases ws with
      | nil => simp [allAgree]
      | cons w ws => rw [allAgree, Bool.and_eq_true, agrees_iff, allAgree_iff, List.cons.injEq]

theorem membersAgree_iff : ∀ {ms ns : List (Text × Value)}, membersAgree ms ns = true ↔ ms = ns
  | [], ns => by cases ns <;> simp [membersAgree]
  | (k, v) :: ms, ns => by
      cases ns with
      | nil => simp [membersAgree]
      | cons n ns =>
          obtain ⟨l, w⟩ := n
          rw [membersAgree, Bool.and_eq_true, Bool.and_eq_true, beq_iff_eq, agrees_iff,
            membersAgree_iff, List.cons.injEq, Prod.mk.injEq]

end

instance : DecidableEq Value := fun v w => decidable_of_iff (agrees v w = true) agrees_iff

/-! ## Up to the order of keys -/

/-- **Two values that differ at most in the order of keys.** -/
inductive Same : Value → Value → Prop
  | refl (v : Value) : Same v v
  | list {vs ws : List Value} (members : List.Forall₂ Same vs ws) : Same (.list vs) (.list ws)
  | table {ms ns : Entries Value}
      (members : ∀ key, Option.Rel Same (ms.get? key) (ns.get? key)) :
      Same (.table ms) (.table ns)

namespace Same

variable {ms ns : Entries Value} {key : Text} {v : Value}

theorem rel_refl (o : Option Value) : Option.Rel Same o o := by
  cases o with
  | none => exact .none
  | some v => exact .some (.refl v)

theorem exists_of_rel_some {o : Option Value} (same : Option.Rel Same o (some v)) :
    ∃ w, o = some w ∧ Same w v := by
  cases same with
  | some same => exact ⟨_, rfl, same⟩

theorem rel_none_iff {o : Option Value} : Option.Rel Same o none ↔ o = none := by
  constructor
  · rintro ⟨⟩
    rfl
  · rintro rfl
    exact .none

theorem table_iff : Same (.table ms) (.table ns) ↔
    ∀ key, Option.Rel Same (ms.get? key) (ns.get? key) := by
  constructor
  · intro same key
    cases same with
    | refl => exact rel_refl _
    | table members => exact members key
  · exact .table

theorem table_set_iff : Same (.table ms) (.table (ns.set key v)) ↔
    (∀ other, other ≠ key → Option.Rel Same (ms.get? other) (ns.get? other)) ∧
      Option.Rel Same (ms.get? key) (some v) := by
  simp only [table_iff, Entries.get?_set]
  constructor
  · intro each
    refine ⟨fun other different => ?_, ?_⟩
    · simpa only [if_neg different] using each other
    · simpa only [if_pos] using each key
  · rintro ⟨others, here⟩ other
    by_cases same : other = key
    · rw [if_pos same, same]
      exact here
    · rw [if_neg same]
      exact others other same

theorem table_erase_iff : Same (.table ms) (.table (ns.erase key)) ↔
    (∀ other, other ≠ key → Option.Rel Same (ms.get? other) (ns.get? other)) ∧
      ms.get? key = none := by
  simp only [table_iff, Entries.get?_erase]
  constructor
  · intro each
    refine ⟨fun other different => ?_, rel_none_iff.mp ?_⟩
    · simpa only [if_neg different] using each other
    · simpa only [if_pos] using each key
  · rintro ⟨others, gone⟩ other
    by_cases same : other = key
    · rw [if_pos same, same, gone]
      exact .none
    · rw [if_neg same]
      exact others other same

end Same

end CodeAtlas.Value
