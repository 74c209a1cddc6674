/-
# Proofs.Hierarchy.Canonical -- one spelling for each path

The canonical spelling of a name has the same segments as the name (`segments_normalize`), so it
stands at the same place, to spell it canonically once more changes nothing, and two names have one
canonical spelling exactly if they have the same segments (`normalize_eq_iff`).

The ancestors of a name are canonical spellings.  The one at position `i` has the first `i + 1`
segments (`ofName_getElem_ancestors`), the path above it is the ancestor in front of it
(`parent?_getElem_ancestors`), and the last one is the name itself (`getLast?_ancestors`).

Whether a name is below another is a matter of segments, unless one of the two is the empty text
(`isDescendant_iff_segments`).  Proper initial parts are a strict order, and so is being below, on all
names: those without a segment are above others, but never in between.
-/
import CodeAtlas.Proofs.Hierarchy.Descendant

namespace CodeAtlas.Hierarchy

set_option autoImplicit false

/-! ## Spellings -/

theorem segments_normalize (name : Text) : segments (normalize name) = segments name :=
  segments_format (isPath_segments name)

theorem normalize_normalize (name : Text) : normalize (normalize name) = normalize name :=
  congrArg format (segments_normalize name)

/-- **Names are spelled alike if they have the same segments.** -/
theorem normalize_eq_iff {name other : Text} :
    normalize name = normalize other ↔ segments name = segments other :=
  format_inj (isPath_segments name) (isPath_segments other)

/-! ## Ancestors by position -/

section Position

variable {name : Text} {i : Nat}

@[simp] theorem length_ancestors (name : Text) :
    (ancestors name).length = (segments name).length := by
  rw [ancestors, List.length_map, List.length_range]

theorem getElem_ancestors (inside : i < (ancestors name).length) :
    (ancestors name)[i] = format ((segments name).take (i + 1)) := by
  simp only [ancestors, List.getElem_map, List.getElem_range]

theorem isPath_take_segments (name : Text) (n : Nat) : IsPath ((segments name).take n) :=
  (isPath_segments name).of_initial (List.take_prefix n _)

/-- An ancestor stands where the initial part of the segments stands. -/
theorem ofName_getElem_ancestors (inside : i < (ancestors name).length) :
    Place.ofName (ancestors name)[i] = Place.ofSegments ((segments name).take (i + 1)) := by
  rw [Place.ofName, getElem_ancestors, segments_format (isPath_take_segments name (i + 1))]

/-- **Above an ancestor is the one in front of it**, and nothing above the first. -/
theorem parent?_getElem_ancestors (inside : i < (ancestors name).length) :
    parent? (ancestors name)[i] = if i = 0 then none else (ancestors name)[i - 1]? := by
  have short : i < (segments name).length := length_ancestors name ▸ inside
  have above : ((segments name).take (i + 1)).dropLast = (segments name).take i := by
    have length : ((segments name).take (i + 1)).length = i + 1 := List.length_take_of_le short
    rw [List.dropLast_eq_take, length, Nat.add_sub_cancel, List.take_take, Nat.min_eq_left i.le_succ]
  rw [getElem_ancestors, parent?_format (isPath_take_segments name (i + 1)), above]
  cases i with
  | zero => rfl
  | succ j =>
      have before : j < (ancestors name).length := Nat.lt_of_succ_lt inside
      have some_ : (segments name).take (j + 1) ≠ [] := by
        rw [ne_eq, List.take_eq_nil_iff, not_or]
        exact ⟨j.succ_ne_zero, List.ne_nil_of_length_pos (Nat.zero_lt_of_lt short)⟩
      rw [if_neg some_, if_neg j.succ_ne_zero, Nat.add_sub_cancel, List.getElem?_eq_getElem before,
        getElem_ancestors]

/-- The last ancestor is the name, if it has a segment at all. -/
theorem getLast?_ancestors (name : Text) :
    (ancestors name).getLast? = if segments name = [] then none else some (normalize name) := by
  rw [List.getLast?_eq_getElem?, length_ancestors]
  by_cases hollow : segments name = []
  · simp [ancestors, hollow]
  · have positive : 0 < (segments name).length := List.length_pos_iff.mpr hollow
    have last : (segments name).length - 1 < (ancestors name).length := by
      rw [length_ancestors]
      exact Nat.sub_one_lt_of_lt positive
    rw [if_neg hollow, List.getElem?_eq_getElem last, getElem_ancestors,
      Nat.sub_add_cancel positive, List.take_length]
    rfl

end Position

/-! ## The order of paths -/

section Order

variable {name middle top : Text}

theorem isDescendant_self (name : Text) : isDescendant name name = false := by
  rw [← Bool.not_eq_true, isDescendant_iff_segments]
  rintro ⟨-, -, -, other⟩
  exact other rfl

theorem isDescendant_trans (lower : isDescendant name middle = true)
    (upper : isDescendant middle top = true) : isDescendant name top = true := by
  rw [isDescendant_iff_segments] at *
  obtain ⟨some_, -, initial, other⟩ := lower
  obtain ⟨-, visible, initial', -⟩ := upper
  refine ⟨some_, visible, initial'.trans initial, fun same => other ?_⟩
  exact initial.eq_of_length_le (same ▸ initial'.length_le)

end Order

/-! ## Paths have a canonical form -/

/-- **The canonical spelling, the ancestors and the order of names.**  A name and its canonical
spelling stand at one place, ancestors count up to the name segment by segment, and being below is a
strict order. -/
theorem canonical_spelling (name : Text) :
    Place.ofName (normalize name) = Place.ofName name ∧
    normalize (normalize name) = normalize name ∧
    (∀ other, normalize name = normalize other ↔ segments name = segments other) ∧
    (ancestors name).length = (segments name).length ∧
    (∀ i (inside : i < (ancestors name).length),
      Place.ofName (ancestors name)[i] = Place.ofSegments ((segments name).take (i + 1)) ∧
        parent? (ancestors name)[i] = if i = 0 then none else (ancestors name)[i - 1]?) ∧
    (ancestors name).getLast? = (if segments name = [] then none else some (normalize name)) ∧
    isDescendant name name = false ∧
    ∀ middle top, isDescendant name middle = true → isDescendant middle top = true →
      isDescendant name top = true := by
  have place : Place.ofName (normalize name) = Place.ofName name :=
    congrArg Place.ofSegments (segments_normalize name)
  refine ⟨place, normalize_normalize name, fun other => normalize_eq_iff, length_ancestors name, ?_,
    getLast?_ancestors name, isDescendant_self name, fun middle top => isDescendant_trans⟩
  intro i inside
  exact ⟨ofName_getElem_ancestors inside, parent?_getElem_ancestors inside⟩

/-- A name with repeated and trailing delimiters, below two others that are not spelled canonically
either. -/
theorem canonical_spelling_loose :
    let name : Text := " A>>B > C >"
    normalize name = "A > B > C" ∧ parent? (normalize name) = some "A > B" ∧
      isDescendant name "B" = false ∧ isDescendant name ">A" = true := by
  intro name
  obtain ⟨place, -, -, -, each, -, -, trans⟩ := canonical_spelling name
  have above := (each 2 (by decide)).2
  have lower : isDescendant name "A> B" = true := by decide
  have upper : isDescendant "A> B" ">A" = true := by decide
  exact ⟨by decide, above.trans (by decide), by decide, trans "A> B" ">A" lower upper⟩

end CodeAtlas.Hierarchy
