/-
# Proofs.Hierarchy.Descendant -- below a path, by segments and by spellings

A name is below another in two ways of saying: its segments properly extend the other's
(`properlyExtends_iff`), or the other is spelled among its ancestors, the last of which is the name
itself and does not count.  The ancestors but the last are those of the path above
(`dropLast_ancestors`), so a name with a segment is among them exactly if its segments are a proper
initial part (`normalize_mem_dropLast_ancestors`).

The two part ways over names without segments.  The empty text is below nothing and above nothing in
both.  A text of blanks and delimiters has no segments either, and no ancestor is spelled so, but as a
list of segments it is a proper initial part of every other: `isDescendant`, which goes by segments
(`isDescendant_iff_segments`), takes it to be above every name that has a segment
(`isDescendant_iff`).
-/
import CodeAtlas.Proofs.Hierarchy.Path

namespace CodeAtlas.Hierarchy

set_option autoImplicit false

/-! ## Proper initial parts -/

theorem properlyExtends_iff {below above : List Text} :
    properlyExtends below above = true ↔ above <+: below ∧ above ≠ below := by
  rw [properlyExtends]
  constructor
  · intro extends_
    split at extends_
    · cases extends_
    · rename_i longer
      rw [beq_iff_eq] at extends_
      refine ⟨extends_ ▸ List.take_prefix _ _, ?_⟩
      rintro rfl
      exact longer le_rfl
  · rintro ⟨initial, other⟩
    have shorter : ¬ below.length ≤ above.length := fun least =>
      other (initial.eq_of_length_le least)
    rw [if_neg shorter, beq_iff_eq]
    exact (List.prefix_iff_eq_take.mp initial).symm

theorem prefix_dropLast_iff {P Q : List Text} (some_ : P ≠ []) :
    P <+: Q.dropLast ↔ P <+: Q ∧ P ≠ Q := by
  constructor
  · intro initial
    refine ⟨initial.trans (List.dropLast_prefix Q), ?_⟩
    rintro rfl
    have shorter := initial.length_le
    have positive := List.length_pos_iff.mpr some_
    rw [List.length_dropLast] at shorter
    omega
  · rintro ⟨⟨rest, rfl⟩, other⟩
    have more : rest ≠ [] := by
      rintro rfl
      exact other (List.append_nil P).symm
    rw [List.dropLast_append_of_ne_nil more]
    exact List.prefix_append P _

/-! ## Ancestors but the last -/

/-- The ancestors of a name but the last are those of the path above it. -/
theorem dropLast_ancestors (name : Text) :
    (ancestors name).dropLast = ancestors (format (segments name).dropLast) := by
  have above : IsPath (segments name).dropLast :=
    (isPath_segments name).of_initial (List.dropLast_prefix _)
  rw [ancestors, ancestors, segments_format above, List.length_dropLast]
  cases length : (segments name).length with
  | zero => rfl
  | succ n =>
      rw [List.range_succ, List.map_append, List.map_singleton, List.dropLast_concat,
        Nat.add_sub_cancel]
      refine List.map_congr_left fun i inside => congrArg format ?_
      have short : i + 1 ≤ (segments name).length - 1 := by
        rw [List.mem_range] at inside
        omega
      rw [List.dropLast_eq_take, List.take_take, Nat.min_eq_left short]

/-- No ancestor is spelled without segments. -/
theorem segments_ne_nil_of_mem_ancestors {name path : Text} (member : path ∈ ancestors name) :
    segments path ≠ [] := by
  obtain ⟨P, some_, initial, rfl⟩ := mem_ancestors.mp member
  rwa [segments_format ((isPath_segments name).of_initial initial)]

theorem normalize_mem_dropLast_ancestors {name ancestor : Text} :
    normalize ancestor ∈ (ancestors name).dropLast ↔
      segments ancestor ≠ [] ∧ segments ancestor <+: segments name ∧
        segments ancestor ≠ segments name := by
  have path := isPath_segments ancestor
  have above : IsPath (segments name).dropLast :=
    (isPath_segments name).of_initial (List.dropLast_prefix _)
  rw [dropLast_ancestors]
  constructor
  · intro member
    have some_ : segments ancestor ≠ [] := by
      have solid := segments_ne_nil_of_mem_ancestors member
      rwa [normalize, segments_format path] at solid
    rw [normalize, format_mem_ancestors path some_, segments_format above,
      prefix_dropLast_iff some_] at member
    exact ⟨some_, member⟩
  · rintro ⟨some_, proper⟩
    rw [normalize, format_mem_ancestors path some_, segments_format above,
      prefix_dropLast_iff some_]
    exact proper

/-! ## The two ways compared -/

/-- Of texts, the test on values is the test on names. -/
theorem isDescendantValue_text (name ancestor : Text) :
    isDescendantValue (.text name) (.text ancestor) = isDescendant name ancestor := rfl

/-- The test is about segments, unless one of the names is the empty text. -/
theorem isDescendant_iff_segments {name ancestor : Text} :
    isDescendant name ancestor = true ↔
      name ≠ [] ∧ ancestor ≠ [] ∧ segments ancestor <+: segments name ∧
        segments ancestor ≠ segments name := by
  rw [isDescendant, ← properlyExtends_iff]
  cases name <;> cases ancestor <;> simp

/-- **What is below what**: the names under a path, and all names that have a segment under a text of
blanks and delimiters. -/
theorem isDescendant_iff {name ancestor : Text} :
    isDescendant name ancestor = true ↔
      normalize ancestor ∈ (ancestors name).dropLast ∨
        ancestor ≠ [] ∧ segments ancestor = [] ∧ segments name ≠ [] := by
  have typed {x : Text} (solid : segments x ≠ []) : x ≠ [] := by
    rintro rfl
    exact solid (by decide)
  rw [isDescendant_iff_segments, normalize_mem_dropLast_ancestors]
  constructor
  · rintro ⟨-, visible, initial, other⟩
    by_cases hollow : segments ancestor = []
    · exact .inr ⟨visible, hollow, fun none_ => other (hollow.trans none_.symm)⟩
    · exact .inl ⟨hollow, initial, other⟩
  · rintro (⟨solid, initial, other⟩ | ⟨visible, hollow, solid⟩)
    · exact ⟨typed (initial.ne_nil solid), typed solid, initial, other⟩
    · exact ⟨typed solid, visible, hollow ▸ List.nil_prefix, hollow ▸ solid.symm⟩

/-- **A name is below another exactly if the other is spelled among its ancestors but the last --
unless the other has no segment without being empty**, and the name has one: then it is below. -/
theorem isDescendant_agrees_iff (name ancestor : Text) :
    isDescendantValue (.text name) (.text ancestor) = isDescendant name ancestor ∧
    (isDescendant name ancestor = true ↔
      normalize ancestor ∈ (ancestors name).dropLast ∨
        ancestor ≠ [] ∧ segments ancestor = [] ∧ segments name ≠ []) ∧
    ((isDescendant name ancestor = true ↔ normalize ancestor ∈ (ancestors name).dropLast) ↔
      ancestor = [] ∨ segments ancestor ≠ [] ∨ segments name = []) := by
  refine ⟨isDescendantValue_text name ancestor, isDescendant_iff, ?_⟩
  have solid : normalize ancestor ∈ (ancestors name).dropLast → segments ancestor ≠ [] := fun member =>
    (normalize_mem_dropLast_ancestors.mp member).1
  rw [isDescendant_iff]
  tauto

/-- A lone delimiter has no segment, and yet `A` is below it. -/
theorem isDescendant_delimiter :
    segments ">" = [] ∧ isDescendant "A" ">" = true ∧
      ¬ (isDescendant "A" ">" = true ↔ normalize ">" ∈ (ancestors "A").dropLast) := by
  decide

end CodeAtlas.Hierarchy
