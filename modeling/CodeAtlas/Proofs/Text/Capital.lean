/-
# Proofs.Text.Capital -- words with a capital

The upper case of a character is the character itself or made of characters that are neither white
space nor signs (`upperImage_apart`), so a word with its first character in upper case is still one
word (`unbroken_capitalize`).

Among the basic characters upper case is undone by lower case, and lower-casing is done character by
character (`lower_of_basic`).  So a basic word in lower case is got back from its capitalized form
(`lower_capitalize`).  Beyond the basic characters it need not be: `ß` becomes `SS`.
-/
import CodeAtlas.Proofs.Text.Case

namespace CodeAtlas.Text

set_option autoImplicit false

variable {c d : Char} {t w : Text}

/-! ## Upper case -/

theorem upperImage_ne_nil (c : Char) : upperImage c ≠ [] := by
  rw [upperImage]
  split
  · exact List.cons_ne_nil _ _
  · exact caseImage_ne_nil (by decide) c

/-- White space and the sign `>`. -/
def dividerRanges : List (Nat × Nat) := (62, 62) :: whiteRanges

/-- What a run takes a number to is no divider, if the images of the run are apart from all. -/
theorem inRanges_of_image {r : ShiftRun} {n m : Nat} (image : r.image? n = some m)
    (apart : ∀ b ∈ dividerRanges, b.2 < r.2.2.2 ∨ r.2.2.2 + (r.2.1 - r.1) < b.1) :
    inRanges dividerRanges (Char.ofNat m).toNat = false := by
  have positive : ∀ b ∈ dividerRanges, 0 < b.1 := by decide
  have value : (Char.ofNat m).toNat = m ∨ (Char.ofNat m).toNat = 0 := by
    by_cases valid : m.isValidChar
    · exact .inl (toNat_charOfNat valid)
    · rw [Char.ofNat, dif_neg valid]
      exact .inr rfl
  obtain ⟨-, above, below⟩ := ShiftRun.of_image?_eq_some image
  rw [inRanges, List.any_eq_false]
  intro b divides inside
  simp only [Bool.and_eq_true, decide_eq_true_eq] at inside
  have := positive b divides
  have := apart b divides
  omega

/-- **Upper case does not divide.**  Where a character is changed, no white space and no sign that
divides comes in. -/
theorem upperImage_apart (member : d ∈ upperImage c) :
    d = c ∨ inRanges dividerRanges d.toNat = false := by
  have basics : ∀ n < 128, (Char.ofNat n).toUpper = Char.ofNat n ∨
      inRanges dividerRanges (Char.ofNat n).toUpper.toNat = false := by decide
  have rows : ∀ r ∈ upperRuns, ∀ b ∈ dividerRanges,
      b.2 < r.2.2.2 ∨ r.2.2.2 + (r.2.1 - r.1) < b.1 := by decide +kernel
  have expanded : ∀ e ∈ upperExpansions, ∀ n ∈ e.2,
      inRanges dividerRanges (Char.ofNat n).toNat = false := by decide
  rw [upperImage] at member
  split at member
  · rename_i basic
    rw [List.mem_singleton] at member
    have same := basics c.toNat basic
    rwa [Char.ofNat_toNat, ← member] at same
  · rcases of_mem_caseImage member with same | ⟨r, row, m, image, rfl⟩ | ⟨e, known, n, inside, rfl⟩
    · exact .inl same
    · exact .inr (inRanges_of_image image (rows r row))
    · exact .inr (expanded e known n inside)

theorem inRanges_dividerRanges (c : Char) :
    inRanges dividerRanges c.toNat = (c == '>' || isBlankChar c) := by
  have sign : (decide (62 ≤ c.toNat) && decide (c.toNat ≤ 62)) = (c == '>') := by
    rw [Bool.eq_iff_iff, Bool.and_eq_true, decide_eq_true_iff, decide_eq_true_iff, beq_iff_eq,
      ← Char.toNat_inj]
    change _ ↔ c.toNat = 62
    omega
  rw [isBlankChar_eq, ← sign]
  rfl

/-! ## Capitalized words -/

theorem capitalize_ne_nil (some_ : w ≠ []) : capitalize w ≠ [] := by
  cases w with
  | nil => exact absurd rfl some_
  | cons c rest => simp [capitalize, upperImage_ne_nil]

/-- A character of a capitalized word was there before, or divides nothing. -/
theorem of_mem_capitalize (member : d ∈ capitalize w) :
    d ∈ w ∨ d ≠ '>' ∧ isBlankChar d = false := by
  cases w with
  | nil => cases member
  | cons c rest =>
      rw [capitalize, List.mem_append] at member
      rcases member with first | later
      · rcases upperImage_apart first with rfl | apart
        · exact .inl List.mem_cons_self
        · rw [inRanges_dividerRanges, Bool.or_eq_false_iff, beq_eq_false_iff_ne] at apart
          exact .inr apart
      · exact .inl (List.mem_cons_of_mem c later)

/-- **A capitalized word is one word.** -/
theorem unbroken_capitalize (unbroken : Unbroken w) : Unbroken (capitalize w) := fun d member =>
  (of_mem_capitalize member).elim (unbroken d) And.right

/-! ## Basic characters -/

/-- Basic characters only. -/
def IsBasic (t : Text) : Prop := ∀ c ∈ t, c.toNat < 128

-- Not by looking at all characters, of which there are finitely many, too.
instance (t : Text) : Decidable (IsBasic t) := List.decidableBAll (fun c : Char => c.toNat < 128) t

/-- Basic characters are put in lower case one by one. -/
theorem lower_of_basic (basic : IsBasic t) : lower t = t.map Char.toLower := by
  suffices all : ∀ before, lowerFrom before t = t.map Char.toLower from all false
  induction t with
  | nil => exact fun _ => rfl
  | cons c t ih =>
      intro before
      have here := basic c List.mem_cons_self
      have other : (c == 'Σ') = false := by
        rw [beq_eq_false_iff_ne]
        rintro rfl
        exact absurd here (by decide)
      rw [lowerFrom, other, if_neg (by simp), lowerImage, if_pos here,
        ih fun d member => basic d (List.mem_cons_of_mem c member)]
      rfl

theorem isBasic_lower (basic : IsBasic t) : IsBasic (lower t) := by
  have basics : ∀ n < 128, (Char.ofNat n).toLower.toNat < 128 := by decide
  rw [lower_of_basic basic]
  intro c member
  obtain ⟨d, inside, rfl⟩ := List.mem_map.mp member
  have same := basics d.toNat (basic d inside)
  rwa [Char.ofNat_toNat] at same

/-- **Lower-casing undoes a capital.** -/
theorem lower_capitalize (basic : IsBasic w) (lowered : Lowered w) : lower (capitalize w) = w := by
  have basics : ∀ n < 128, (Char.ofNat n).toUpper.toNat < 128 ∧
      (Char.ofNat n).toUpper.toLower = (Char.ofNat n).toLower := by decide
  have same : ∀ c ∈ w, c.toLower = c := by
    intro c member
    have := lowered c member
    rw [lowerImage, if_pos (basic c member)] at this
    exact (List.cons.inj this).1
  cases w with
  | nil => rfl
  | cons c rest =>
      have first := basics c.toNat (basic c List.mem_cons_self)
      rw [Char.ofNat_toNat] at first
      have capital : capitalize (c :: rest) = c.toUpper :: rest := by
        rw [capitalize, upperImage, if_pos (basic c List.mem_cons_self)]
        rfl
      have basic' : IsBasic (c.toUpper :: rest) :=
        List.forall_mem_cons.mpr ⟨first.1, fun d member => basic d (List.mem_cons_of_mem c member)⟩
      rw [capital, lower_of_basic basic', List.map_cons, first.2, same c List.mem_cons_self]
      exact congrArg _ ((List.map_congr_left fun d member =>
        same d (List.mem_cons_of_mem c member)).trans (List.map_id _))

end CodeAtlas.Text
