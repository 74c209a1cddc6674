/-
# Proofs.Number.Order -- the order of floating-point numbers

Of the numbers that are not NaN each has a *rank*: first its sign, with the infinities outermost,
then its exponent and its digits, for negative numbers with their signs turned.  One number is less
than another exactly if it has the lesser rank (`lt_iff_rank`).  So being less is transitive
(`lt_trans`), whatever the numbers.
-/
import Mathlib.Data.Prod.Lex
import Mathlib.Order.Basic

namespace CodeAtlas.Number

set_option autoImplicit false

open Float.Model (UnpackedFloat)

/-- Where a number stands among all others; NaN stands nowhere. -/
def rank? : UnpackedFloat → Option (Int ×ₗ Int ×ₗ Int)
  | .notANumber => none
  | .infinity .negative => some (toLex (-2, toLex (0, 0)))
  | .finite .negative m e _ => some (toLex (-1, toLex (-e, -m)))
  | .zero _ => some (toLex (0, toLex (0, 0)))
  | .finite .positive m e _ => some (toLex (1, toLex (e, m)))
  | .infinity .positive => some (toLex (2, toLex (0, 0)))

theorem then_eq_lt_iff {e e' : Int} {m m' : Nat} :
    (compare e e').then (compare m m') = .lt ↔ e < e' ∨ e = e' ∧ m < m' := by
  rw [Ordering.then_eq_lt, compare_lt_iff_lt, compare_eq_iff_eq, compare_lt_iff_lt]

theorem then_eq_gt_iff {e e' : Int} {m m' : Nat} :
    (compare e e').then (compare m m') = .gt ↔ e' < e ∨ e = e' ∧ m' < m := by
  rw [Ordering.then_eq_gt, compare_gt_iff_gt, compare_eq_iff_eq, compare_gt_iff_gt]

/-- **A number is less than another if it has the lesser rank.** -/
theorem lt_iff_rank (a b : UnpackedFloat) :
    a.lt b = true ↔ ∃ r s, rank? a = some r ∧ rank? b = some s ∧ r < s := by
  have infinities : compare UnpackedFloat.Sign.negative .positive = .lt := rfl
  rcases a with (_ | _) | _ | _ | ⟨_ | _, m, e, _⟩ <;>
    rcases b with (_ | _) | _ | _ | ⟨_ | _, m', e', _⟩ <;>
      dsimp only [UnpackedFloat.lt, UnpackedFloat.compare, rank?] <;>
        simp [Prod.Lex.toLex_lt_toLex, infinities, then_eq_lt_iff, then_eq_gt_iff]

/-- Being less is transitive, for numbers of any kind. -/
theorem lt_trans {x y z : Float} (first : x < y) (second : y < z) : x < z := by
  have less (a b : Float) : a < b ↔ a.toModel.unpack.lt b.toModel.unpack = true := by
    change a.lt b = true ↔ _
    rw [Float.lt, decide_eq_true_iff]
    rfl
  rw [less, lt_iff_rank] at *
  obtain ⟨r, s, rx, ry, rs⟩ := first
  obtain ⟨s', q, ry', rz, sq⟩ := second
  obtain rfl := Option.some.inj (ry.symm.trans ry')
  exact ⟨r, q, rx, rz, rs.trans sq⟩

end CodeAtlas.Number
