/-
# Proofs.Naming.Edits -- the distance is the least number of edits

An edit inserts, deletes or replaces a single character anywhere in a text (`Edit`); a script is a
number of edits made one after the other (`Edits`).  The distance of two texts is the least length of
a script that leads from the one to the other:

* a script of that length exists, because each case of the recursion is one edit at the front
  (`edits_distance`);
* no script is shorter, because one edit moves a text by at most one away from any third text
  (`Edit.distance_le`, `Edits.distance_le`).

The second needs that texts which differ in their first character only are at most one apart in
their distances to a third (`distance_neighbours`, `distance_cons_swap`), and that more characters in
front of both change nothing about this (`distance_append_le`).

Scripts can be put one after the other, so the distance is a metric.  The similarity is one formula,
read in floating-point numbers when the program runs; read in the rational numbers it is one minus
the distance in relation to the longer length, without exception (`similarityIn_rat`).
-/
import Mathlib.Algebra.Order.Field.Basic
import Mathlib.Algebra.Order.Field.Rat
import Mathlib.Data.Rat.Cast.OfScientific
import Mathlib.Order.Bounds.Basic
import Mathlib.Tactic.NormNum
import CodeAtlas.Proofs.Naming.EditDistance

namespace CodeAtlas.Naming

set_option autoImplicit false

/-! ## Edits -/

/-- One edit of a single character, between any two parts of a text. -/
inductive Edit : Text → Text → Prop
  | insertion (before : Text) (c : Char) (rest : Text) :
      Edit (before ++ rest) (before ++ c :: rest)
  | deletion (before : Text) (c : Char) (rest : Text) :
      Edit (before ++ c :: rest) (before ++ rest)
  | substitution (before : Text) (c d : Char) (rest : Text) :
      Edit (before ++ c :: rest) (before ++ d :: rest)

/-- So many edits, one after the other, lead from the first text to the second. -/
inductive Edits : Nat → Text → Text → Prop
  | done (s : Text) : Edits 0 s s
  | step {n : Nat} {s t u : Text} (edit : Edit s t) (rest : Edits n t u) : Edits (n + 1) s u

/-- An edit does not mind a character in front. -/
theorem Edit.cons {s t : Text} (edit : Edit s t) (a : Char) : Edit (a :: s) (a :: t) := by
  cases edit with
  | insertion before c rest => exact .insertion (a :: before) c rest
  | deletion before c rest => exact .deletion (a :: before) c rest
  | substitution before c d rest => exact .substitution (a :: before) c d rest

theorem Edits.cons {n : Nat} {s t : Text} (edits : Edits n s t) (a : Char) :
    Edits n (a :: s) (a :: t) := by
  induction edits with
  | done s => exact .done (a :: s)
  | step edit _ ih => exact .step (edit.cons a) ih

theorem Edits.append {m n : Nat} {s t u : Text} (first : Edits m s t) (second : Edits n t u) :
    Edits (m + n) s u := by
  induction first with
  | done s =>
      rw [Nat.zero_add]
      exact second
  | step edit _ ih =>
      rw [Nat.succ_add]
      exact .step edit (ih second)

/-! ## A script as long as the distance -/

theorem edits_nil_left (t : Text) : Edits t.length [] t := by
  induction t with
  | nil => exact .done []
  | cons d t ih => exact .step (.insertion [] d []) (ih.cons d)

theorem edits_nil_right (s : Text) : Edits s.length s [] := by
  induction s with
  | nil => exact .done []
  | cons c s ih => exact .step (.deletion [] c s) ih

/-- **There is a script as long as the distance.** -/
theorem edits_distance (s t : Text) : Edits (distance s t) s t := by
  induction s generalizing t with
  | nil =>
      rw [distance_nil_left]
      exact edits_nil_left t
  | cons c s ihs =>
      induction t with
      | nil =>
          rw [distance_nil_right]
          exact edits_nil_right (c :: s)
      | cons d t iht =>
          have replaced : Edits (distance s t + 1) (c :: s) (d :: t) :=
            .step (.substitution [] c d s) ((ihs t).cons d)
          have inserted : Edits (distance (c :: s) t + 1) (c :: s) (d :: t) :=
            .step (.insertion [] d (c :: s)) (iht.cons d)
          have deleted : Edits (distance s (d :: t) + 1) (c :: s) (d :: t) :=
            .step (.deletion [] c s) (ihs (d :: t))
          rw [distance_cons_cons]
          by_cases same : c = d
          · subst same
            rw [if_pos rfl]
            exact (ihs t).cons c
          · rw [if_neg same]
            rcases min_choice (distance s t)
              (min (distance (c :: s) t) (distance s (d :: t))) with least | least
            · rw [least]
              exact replaced
            · rw [least]
              rcases min_choice (distance (c :: s) t) (distance s (d :: t)) with least' | least'
              · rw [least']
                exact inserted
              · rw [least']
                exact deleted

/-! ## No script is shorter -/

theorem distance_self (s : Text) : distance s s = 0 := by
  induction s with
  | nil => rfl
  | cons c s ih => rw [distance_cons_cons, if_pos rfl, ih]

/-- A character more or less in front of either text moves their distance by at most one. -/
theorem distance_neighbours (s t : Text) :
    (∀ c, distance (c :: s) t ≤ distance s t + 1 ∧ distance s t ≤ distance (c :: s) t + 1) ∧
      ∀ d, distance s (d :: t) ≤ distance s t + 1 ∧ distance s t ≤ distance s (d :: t) + 1 := by
  -- Both halves at once: with equal first characters the one for `t` needs the other for its rest.
  induction s generalizing t with
  | nil =>
      constructor
      · intro c
        induction t with
        | nil => simp
        | cons e t ih =>
            rw [distance_cons_cons]
            simp only [distance_nil_left, List.length_cons] at ih ⊢
            split <;> omega
      · intro d
        simp only [distance_nil_left, List.length_cons]
        omega
  | cons b s ihs =>
      induction t with
      | nil =>
          refine ⟨fun c => by simp, fun d => ?_⟩
          have shorter := (ihs []).2 d
          rw [distance_cons_cons]
          simp only [distance_nil_right, List.length_cons] at shorter ⊢
          split <;> omega
      | cons e t iht =>
          constructor
          · intro c
            have left := iht.1 c
            have right := iht.2 e
            rw [distance_cons_cons c e]
            split <;> omega
          · intro d
            have left := (ihs (e :: t)).1 b
            have right := (ihs (e :: t)).2 d
            rw [distance_cons_cons b d]
            split <;> omega

/-- So does another character in front. -/
theorem distance_cons_swap (c d : Char) (s t : Text) :
    distance (c :: s) t ≤ distance (d :: s) t + 1 := by
  induction t with
  | nil => simp
  | cons e t ih =>
      have shorter := (distance_neighbours s t).1 d
      have longer := (distance_neighbours s t).2 e
      rw [distance_cons_cons, distance_cons_cons]
      split <;> split <;> omega

/-- What holds of two texts against every third holds with a character in front of both. -/
theorem distance_cons_le {s s' : Text} (near : ∀ t, distance s t ≤ distance s' t + 1) (c : Char)
    (t : Text) : distance (c :: s) t ≤ distance (c :: s') t + 1 := by
  induction t with
  | nil =>
      have lengths := near []
      simp only [distance_nil_right, List.length_cons] at lengths ⊢
      omega
  | cons d t ih =>
      have both := near t
      have first := near (d :: t)
      rw [distance_cons_cons, distance_cons_cons]
      split <;> omega

theorem distance_append_le {s s' : Text} (near : ∀ t, distance s t ≤ distance s' t + 1)
    (before t : Text) : distance (before ++ s) t ≤ distance (before ++ s') t + 1 := by
  induction before generalizing t with
  | nil => exact near t
  | cons c before ih => exact distance_cons_le ih c t

/-- **An edit moves a text by at most one away from any other.** -/
theorem Edit.distance_le {s t : Text} (edit : Edit s t) (u : Text) :
    distance s u ≤ distance t u + 1 := by
  cases edit with
  | insertion before c rest =>
      exact distance_append_le (fun u => ((distance_neighbours rest u).1 c).2) before u
  | deletion before c rest =>
      exact distance_append_le (fun u => ((distance_neighbours rest u).1 c).1) before u
  | substitution before c d rest =>
      exact distance_append_le (fun u => distance_cons_swap c d rest u) before u

/-- **No script is shorter than the distance.** -/
theorem Edits.distance_le {n : Nat} {s t : Text} (edits : Edits n s t) : distance s t ≤ n := by
  induction edits with
  | done s => rw [distance_self]
  | step edit _ ih => exact (edit.distance_le _).trans (Nat.succ_le_succ ih)

/-! ## The metric -/

theorem isLeast_distance (s t : Text) : IsLeast {n | Edits n s t} (distance s t) :=
  ⟨edits_distance s t, fun _ edits => edits.distance_le⟩

theorem distance_eq_zero_iff {s t : Text} : distance s t = 0 ↔ s = t := by
  constructor
  · intro zero
    have nothing := edits_distance s t
    rw [zero] at nothing
    cases nothing
    rfl
  · rintro rfl
    exact distance_self s

theorem distance_triangle (s t u : Text) : distance s u ≤ distance s t + distance t u :=
  ((edits_distance s t).append (edits_distance t u)).distance_le

theorem distance_le_max (s t : Text) : distance s t ≤ max s.length t.length := by
  induction s generalizing t with
  | nil => simp
  | cons c s ih =>
      cases t with
      | nil => simp
      | cons d t =>
          have shorter := ih t
          rw [distance_cons_cons, List.length_cons, List.length_cons]
          split <;> omega

/-! ## Similarity -/

/-- The similarity of two names in the arithmetic of the numbers `K`. -/
def similarityIn (K : Type) [OfScientific K] [Sub K] [Div K] (a b : Text) : K :=
  let s := Text.lower a
  let t := Text.lower b
  let count (n : Nat) : K := OfScientific.ofScientific n false 0
  if s == t then 1.0
  else if s.isEmpty || t.isEmpty then 0.0
  else 1.0 - count (distance s t) / count (max s.length t.length)

theorem similarity_eq_similarityIn (a b : Text) : similarity a b = similarityIn Float a b := rfl

/-- **In exact arithmetic the similarity is one formula**: the two cases before it are its values
for equal texts and for an empty one. -/
theorem similarityIn_rat (a b : Text) :
    similarityIn ℚ a b = 1 - (distance (Text.lower a) (Text.lower b) : ℚ) /
      (max (Text.lower a).length (Text.lower b).length : ℕ) := by
  rw [similarityIn]
  generalize Text.lower a = s
  generalize Text.lower b = t
  have count (n : Nat) : (OfScientific.ofScientific n false 0 : ℚ) = n := by
    norm_num [NNRatCast.ofScientific_eq_ite]
  simp only [count, beq_iff_eq, Bool.or_eq_true, List.isEmpty_iff]
  split
  · rename_i same
    rw [distance_eq_zero_iff.mpr same]
    norm_num
  · rename_i different
    split
    · rename_i empty
      have whole : distance s t = max s.length t.length := by
        rcases empty with rfl | rfl <;> simp
      have positive : max s.length t.length ≠ 0 := by
        intro zero
        rw [Nat.max_eq_zero_iff, List.length_eq_zero_iff, List.length_eq_zero_iff] at zero
        exact different (zero.1.trans zero.2.symm)
      rw [whole, div_self (Nat.cast_ne_zero.mpr positive)]
      norm_num
    · norm_num

theorem similarityIn_rat_eq_one_iff (a b : Text) :
    similarityIn ℚ a b = 1 ↔ Text.lower a = Text.lower b := by
  have bound := distance_le_max (Text.lower a) (Text.lower b)
  rw [similarityIn_rat, sub_eq_self, div_eq_zero_iff, Nat.cast_eq_zero, Nat.cast_eq_zero,
    ← distance_eq_zero_iff]
  omega

/-- **The distance is the least number of single-character edits**, hence a metric, and bounded by
the longer length.  The similarity, in exact arithmetic, does not depend on the order of the names,
is between 0 and 1, and is 1 exactly for names that differ in upper and lower case at most. -/
theorem distance_exact :
    (∀ s t, IsLeast {n | Edits n s t} (distance s t)) ∧
    (∀ s t, distance s t = 0 ↔ s = t) ∧
    (∀ s t, distance s t = distance t s) ∧
    (∀ s t u, distance s u ≤ distance s t + distance t u) ∧
    (∀ s t, distance s t ≤ max s.length t.length) ∧
    (∀ a b, similarity a b = similarityIn Float a b) ∧
    ∀ a b, similarityIn ℚ a b = similarityIn ℚ b a ∧
      0 ≤ similarityIn ℚ a b ∧ similarityIn ℚ a b ≤ 1 ∧
      (similarityIn ℚ a b = 1 ↔ Text.lower a = Text.lower b) := by
  refine ⟨isLeast_distance, fun s t => distance_eq_zero_iff, distance_comm, distance_triangle,
    distance_le_max, similarity_eq_similarityIn, fun a b => ⟨?_, ?_, ?_, ?_⟩⟩
  · rw [similarityIn_rat, similarityIn_rat, distance_comm, max_comm]
  · have part : (distance (Text.lower a) (Text.lower b) : ℚ) ≤
        (max (Text.lower a).length (Text.lower b).length : ℕ) :=
      Nat.cast_le.mpr (distance_le_max _ _)
    rw [similarityIn_rat, sub_nonneg]
    exact div_le_one_of_le₀ part (Nat.cast_nonneg _)
  · rw [similarityIn_rat, sub_le_self_iff]
    exact div_nonneg (Nat.cast_nonneg _) (Nat.cast_nonneg _)
  · exact similarityIn_rat_eq_one_iff a b

end CodeAtlas.Naming
