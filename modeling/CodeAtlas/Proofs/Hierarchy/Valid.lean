/-
# Proofs.Hierarchy.Valid -- which names are valid

A name is documented to be made of letters and digits of the basic alphabet, spaces, hyphens and low
lines, in pieces between delimiters none of which is blank (`Grammatical`).  Every such name is valid.
But a valid name may hold white space of any kind where a space may stand, because only the ends of a
piece are trimmed: a tab, a line break, a space beyond the basic alphabet (`isValid_iff`).  So the
valid names are the documented ones but for those with other white space than the space inside a piece
(`isValid_agrees_iff`).

Whatever the white space, a valid name has no other characters (`of_mem_of_isValid`) and is not blank
(`trim_ne_nil_of_isValid`).
-/
import CodeAtlas.Hierarchy.Path
import CodeAtlas.Proofs.Text.Ends

namespace CodeAtlas.Hierarchy

set_option autoImplicit false

variable {name : Text}

/-! ## The grammar of names -/

/-- A letter or a digit of the basic alphabet, the space, the hyphen or the low line. -/
def IsNameChar (c : Char) : Prop :=
  ('a' ≤ c ∧ c ≤ 'z') ∨ ('A' ≤ c ∧ c ≤ 'Z') ∨ ('0' ≤ c ∧ c ≤ '9') ∨ c = ' ' ∨ c = '-' ∨ c = '_'

instance : DecidablePred IsNameChar := fun _ =>
  inferInstanceAs (Decidable (_ ∨ _ ∨ _ ∨ _ ∨ _ ∨ _))

/-- No piece between delimiters is blank, and each of them, trimmed, has only characters for which
`P` holds. -/
def MadeOf (P : Char → Prop) (name : Text) : Prop :=
  ∀ piece ∈ Text.splitOn delimiter name, Text.trim piece ≠ [] ∧ ∀ c ∈ Text.trim piece, P c

instance (P : Char → Prop) [DecidablePred P] (name : Text) : Decidable (MadeOf P name) :=
  -- by the characters of a piece, and not by all characters that there are
  haveI (piece : Text) : Decidable (∀ c ∈ Text.trim piece, P c) := List.decidableBAll P _
  List.decidableBAll (fun piece => Text.trim piece ≠ [] ∧ ∀ c ∈ Text.trim piece, P c) _

/-- **A name as documented.** -/
abbrev Grammatical (name : Text) : Prop := MadeOf IsNameChar name

theorem MadeOf.mono {P Q : Char → Prop} (made : MadeOf P name) (weaker : ∀ c, P c → Q c) :
    MadeOf Q name := fun piece cut =>
  ⟨(made piece cut).1, fun c member => weaker c ((made piece cut).2 c member)⟩

theorem MadeOf.and {P Q : Char → Prop} (made : MadeOf P name)
    (also : ∀ piece ∈ Text.splitOn delimiter name, ∀ c ∈ Text.trim piece, Q c) :
    MadeOf (fun c => P c ∧ Q c) name := fun piece cut =>
  ⟨(made piece cut).1, fun c member => ⟨(made piece cut).2 c member, also piece cut c member⟩⟩

/-- The space is the only white space among the documented characters. -/
theorem IsNameChar.eq_space {c : Char} (plain : IsNameChar c)
    (blank : Text.isBlankChar c = true) : c = ' ' := by
  have basics : ∀ n < 128, IsNameChar (Char.ofNat n) → Text.isBlankChar (Char.ofNat n) = true →
      Char.ofNat n = ' ' := by decide
  have basic : c.toNat < 128 := by
    have high {last : Char} (le : c ≤ last) (small : last.toNat < 128) : c.toNat < 128 :=
      Nat.lt_of_le_of_lt (UInt32.le_iff_toNat_le.mp le) small
    rcases plain with letter | capital | digit | rfl | rfl | rfl
    · exact high letter.2 (by decide)
    · exact high capital.2 (by decide)
    · exact high digit.2 (by decide)
    all_goals decide
  have here := basics c.toNat basic
  rw [Char.ofNat_toNat] at here
  exact here plain blank

/-! ## Valid names -/

theorem isSegmentChar_iff {c : Char} :
    isSegmentChar c = true ↔ IsNameChar c ∨ Text.isBlankChar c = true := by
  have letters : c.isAlphanum = (decide ('A' ≤ c ∧ c ≤ 'Z') ||
      (decide ('a' ≤ c) && decide (c ≤ 'z')) || (decide ('0' ≤ c) && decide (c ≤ '9'))) := rfl
  have space : c = ' ' → Text.isBlankChar c = true := by
    rintro rfl
    decide
  simp only [isSegmentChar, letters, Bool.or_eq_true, Bool.and_eq_true,
    decide_eq_true_eq, beq_iff_eq, IsNameChar]
  grind

/-- **A valid name** has white space of any kind among the documented characters. -/
theorem isValid_iff :
    isValid name = true ↔ MadeOf (fun c => IsNameChar c ∨ Text.isBlankChar c = true) name := by
  have some_ (made : MadeOf (fun c => IsNameChar c ∨ Text.isBlankChar c = true) name) :
      name ≠ [] := by
    rintro rfl
    exact (made [] (by simp [Text.splitOn])).1 rfl
  simp only [isValid, Bool.and_eq_true, Bool.not_eq_true', List.isEmpty_eq_false_iff,
    List.all_eq_true, List.forall_mem_map, isSegmentChar_iff]
  constructor
  · rintro ⟨⟨-, solid⟩, plain⟩
    exact fun piece cut => ⟨solid piece cut, plain piece cut⟩
  · intro made
    exact ⟨⟨some_ made, fun piece cut => (made piece cut).1⟩, fun piece cut => (made piece cut).2⟩

/-- A valid name has no characters but these and delimiters. -/
theorem of_mem_of_isValid (valid : isValid name = true) {c : Char} (member : c ∈ name) :
    c = delimiter ∨ isSegmentChar c = true := by
  by_cases cuts : c = delimiter
  · exact .inl cuts
  · obtain ⟨piece, cut, inside⟩ := Text.exists_mem_splitOn cuts member
    refine .inr (isSegmentChar_iff.mpr ?_)
    cases solid : Text.isBlankChar c with
    | true => exact .inr rfl
    | false =>
        have kept := (isValid_iff.mp valid piece cut).2 c (Text.mem_trim solid inside)
        exact .inl (kept.resolve_right (by simp [solid]))

theorem trim_ne_nil_of_isValid (valid : isValid name = true) : Text.trim name ≠ [] := by
  intro blank
  have whole : Text.splitOn delimiter name = [name] :=
    Text.splitOn_of_not_mem fun member => by
      have kept := Text.mem_trim (by decide : Text.isBlankChar delimiter = false) member
      simp [blank] at kept
  exact (isValid_iff.mp valid name (by simp [whole])).1 blank

/-- **Where the valid names are the documented ones.**  A name is valid when it is made of documented
characters and white space of any kind, in pieces that are not blank.  That is the grammar, unless such
a name holds other white space than the space inside a piece. -/
theorem isValid_agrees_iff (name : Text) :
    (isValid name = true ↔ MadeOf (fun c => IsNameChar c ∨ Text.isBlankChar c = true) name) ∧
      ((isValid name = true ↔ Grammatical name) ↔
        (isValid name = true → ∀ piece ∈ Text.splitOn delimiter name, ∀ c ∈ Text.trim piece,
          Text.isBlankChar c = true → c = ' ')) := by
  have sound : Grammatical name → isValid name = true := fun grammatical =>
    isValid_iff.mpr (grammatical.mono fun c => .inl)
  refine ⟨isValid_iff, fun agrees valid piece cut c member blank => ?_, fun spaces => ?_⟩
  · exact ((agrees.mp valid piece cut).2 c member).eq_space blank
  · refine ⟨fun valid => ?_, sound⟩
    have made := (isValid_iff.mp valid).and (spaces valid)
    refine made.mono fun c ⟨known, space⟩ => ?_
    rcases known with plain | blank
    · exact plain
    · rw [space blank]
      decide

/-- A line break and a tab are taken for the space, though a name is documented to have neither. -/
theorem isValid_of_broken :
    (isValid "Auth\nLogin" = true ∧ ¬ Grammatical "Auth\nLogin") ∧
      isValid "Auth\tLogin > Form" = true ∧ ¬ Grammatical "Auth\tLogin > Form" := by
  decide

end CodeAtlas.Hierarchy
