/-
# Proofs.Value.Shown -- nothing is shown as the empty text

The written form of a value is never empty: numbers have a digit or a word, a moment has its
separators, and all else has its marks or is a word (`literal_ne_nil`).  Only a text is shown bare,
so only the empty text is shown as nothing, and that one is hollow (`shown_ne_nil`).
-/
import CodeAtlas.Proofs.Number.Integer
import CodeAtlas.Value.Shown

namespace CodeAtlas

set_option autoImplicit false

namespace Number

theorem showInt_ne_nil (n : Int) : showInt n ≠ [] := by
  cases n with
  | ofNat n => exact showNat_ne_nil n
  | negSucc n => exact List.cons_ne_nil _ _

/-- However digits are laid out, there is a point or an exponent. -/
theorem layOut_ne_nil (digits : Text) (point : Int) : layOut digits point ≠ [] := by
  unfold layOut
  split
  · split
    · simp
    · split
      · simp
      · simp
  · simp

theorem showFloat_ne_nil (x : Float) : showFloat x ≠ [] := by
  unfold showFloat
  split
  · split
    · decide
    · split <;> decide
  · dsimp only
    split
    · simp
    · simp [layOut_ne_nil]

end Number

namespace Moment

theorem literal_ne_nil (m : Moment) : m.literal ≠ [] := by
  cases m <;> simp [literal, call]

theorem iso_ne_nil (between : Char) (m : Moment) : m.iso between ≠ [] := by
  cases m <;> simp [iso, Day.iso, Clock.iso]

end Moment

namespace Value

theorem literal_ne_nil (v : Value) : v.literal ≠ [] := by
  cases v with
  | null =>
      rw [literal]
      decide
  | bool b => cases b <;> rw [literal] <;> decide
  | int n =>
      rw [literal]
      exact Number.showInt_ne_nil n
  | float x =>
      rw [literal]
      exact Number.showFloat_ne_nil x
  | text t =>
      rw [literal]
      exact List.cons_ne_nil _ _
  | moment m =>
      rw [literal]
      exact Moment.literal_ne_nil m
  | list vs =>
      rw [literal]
      simp
  | table ms =>
      rw [literal]
      simp

/-- **A value that is not hollow is shown as something.** -/
theorem shown_ne_nil {v : Value} (solid : v.isHollow = false) : v.shown ≠ [] := by
  cases v with
  | text t => simpa [isHollow, shown] using solid
  | moment m => exact Moment.iso_ne_nil ' ' m
  | _ => exact literal_ne_nil _

end Value

end CodeAtlas
