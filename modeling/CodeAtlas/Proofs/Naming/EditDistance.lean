/-
# Proofs.Naming.EditDistance -- the distance by its recursion

The rows behind the distance of two texts are made one character of the first text at a time.  A row
without its first member is the row of the same text against one character less (`row_cons_right`),
so the distance obeys the recursion on the first characters of both texts (`distance_cons_cons`), and
nothing else has to be known about rows.

The recursion treats both texts alike, so the order of two texts does not matter for their distance
(`distance_comm`), nor that of two names for their similarity (`similarity_comm`).
-/
import CodeAtlas.Naming.EditDistance

namespace CodeAtlas.Naming

set_option autoImplicit false

/-! ## The recursion -/

theorem row_cons_left (c : Char) (s t : Text) : row (c :: s) t = nextRow c t (row s t) := rfl

/-- The row against one more character in front has one more member in front. -/
theorem row_cons_right (s : Text) (d : Char) (t : Text) :
    row s (d :: t) = distance s (d :: t) :: row s t := by
  induction s with
  | nil => rfl
  | cons c s ih =>
      rw [distance, row_cons_left, nextRow, ih]
      rfl

@[simp] theorem distance_nil_left (t : Text) : distance [] t = t.length := by
  cases t <;> rfl

@[simp] theorem distance_nil_right (s : Text) : distance s [] = s.length := by
  induction s with
  | nil => rfl
  | cons c s ih =>
      rw [distance, row_cons_left, nextRow, List.headD_cons, List.length_cons, ← ih]
      rfl

/-- **Equal first characters cost nothing; different ones cost one edit** more than the cheapest of
replacing the one by the other, leaving out the second, and leaving out the first. -/
theorem distance_cons_cons (c d : Char) (s t : Text) :
    distance (c :: s) (d :: t) =
      if c = d then distance s t
      else min (distance s t) (min (distance (c :: s) t) (distance s (d :: t))) + 1 := by
  have head : distance (c :: s) (d :: t) = (nextRow c (d :: t) (row s (d :: t))).headD 0 := rfl
  rw [head, nextRow, row_cons_right, List.headD_cons]
  simp only [List.tail_cons, List.headD_cons, beq_iff_eq]
  rfl

/-! ## Symmetry -/

theorem distance_comm (s t : Text) : distance s t = distance t s := by
  induction s generalizing t with
  | nil => rw [distance_nil_left, distance_nil_right]
  | cons c s ihs =>
      induction t with
      | nil => rw [distance_nil_left, distance_nil_right]
      | cons d t iht =>
          rw [distance_cons_cons, distance_cons_cons, ihs t, ihs (d :: t), iht]
          by_cases same : c = d
          · rw [if_pos same, if_pos same.symm]
          · rw [if_neg same, if_neg (Ne.symm same), Nat.min_comm (distance t (c :: s))]

/-- **Names are alike in either order.** -/
theorem similarity_comm (a b : Text) : similarity a b = similarity b a := by
  simp only [similarity]
  rw [distance_comm (Text.lower a), Nat.max_comm, Bool.or_comm, BEq.comm (a := Text.lower a)]

end CodeAtlas.Naming
