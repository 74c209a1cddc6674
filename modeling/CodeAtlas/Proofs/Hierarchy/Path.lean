/-
# Proofs.Hierarchy.Path -- paths are their segments

A segment is a trimmed text that is not empty and holds no delimiter (`IsSegment`), and a path is a
list of segments (`IsPath`).  The segments of any name are a path (`isPath_segments`), and joining a
path and cutting it again gives it back (`segments_format`), so two paths with one spelling are the
same path (`format_inj`).

With that the operations on names are operations on lists: the ancestors of a name are the spellings
of the non-empty initial parts of its segments (`mem_ancestors`), each listed once, and the path
above a path is the path without its last segment (`parent?_format`).
-/
import Mathlib.Data.List.Nodup
import CodeAtlas.Hierarchy.Path
import CodeAtlas.Proofs.Text.Pieces

namespace CodeAtlas.Hierarchy

set_option autoImplicit false

/-- A piece that cutting at the delimiters can give. -/
structure IsSegment (s : Text) : Prop where
  ne_nil : s ≠ []
  trimmed : Text.Trimmed s
  no_delimiter : delimiter ∉ s

def IsPath (path : List Text) : Prop := ∀ s ∈ path, IsSegment s

theorem IsPath.of_initial {P Q : List Text} (path : IsPath Q) (initial : P <+: Q) : IsPath P :=
  fun s member => path s (initial.subset member)

/-! ## Cutting a spelling -/

theorem isPath_segments (name : Text) : IsPath (segments name) := by
  intro s member
  rw [segments, List.mem_filter, List.mem_map] at member
  obtain ⟨⟨piece, cut, rfl⟩, some_⟩ := member
  exact
    { ne_nil := by simpa using some_
      trimmed := Text.trimmed_trim piece
      no_delimiter := fun inside =>
        Text.not_mem_of_mem_splitOn cut (Text.mem_of_mem_trim inside) }

/-- A blank in front of a name belongs to no segment. -/
theorem segments_cons_blank (t : Text) : segments (' ' :: t) = segments t := by
  obtain ⟨piece, pieces, cut, cut'⟩ :=
    Text.splitOn_cons_of_ne (show ' ' ≠ delimiter by decide) t
  rw [segments, segments, cut, cut', List.map_cons, List.map_cons,
    Text.trim_cons_of_blank (by decide)]

theorem segments_of_isSegment {s : Text} (segment : IsSegment s) : segments s = [s] := by
  rw [segments, Text.splitOn_of_not_mem segment.no_delimiter, List.map_singleton,
    Text.trim_of_trimmed segment.trimmed,
    List.filter_cons_of_pos (by simp [segment.ne_nil]), List.filter_nil]

theorem segments_append_separator {s : Text} (segment : IsSegment s) (t : Text) :
    segments (s ++ separator ++ t) = s :: segments t := by
  have shape : s ++ separator ++ t = (s ++ [' ']) ++ delimiter :: (' ' :: t) := by
    simp [separator, delimiter]
  have absent : delimiter ∉ s ++ [' '] := by
    rw [List.mem_append, List.mem_singleton, not_or]
    exact ⟨segment.no_delimiter, by decide⟩
  rw [shape, segments, Text.splitOn_append_cons absent, List.map_cons,
    Text.trim_concat_of_blank (by decide), Text.trim_of_trimmed segment.trimmed,
    List.filter_cons_of_pos (by simp [segment.ne_nil])]
  exact congrArg (s :: ·) (segments_cons_blank t)

/-- **Joining a path and cutting it again gives it back.** -/
theorem segments_format {P : List Text} (path : IsPath P) : segments (format P) = P := by
  induction P with
  | nil => rfl
  | cons s P ih =>
      have segment : IsSegment s := path s (by simp)
      cases P with
      | nil => rw [format, Text.join_singleton, segments_of_isSegment segment]
      | cons s' P =>
          rw [format, Text.join_cons_cons, segments_append_separator segment]
          exact congrArg (s :: ·) (ih fun t member => path t (List.mem_cons_of_mem s member))

theorem format_inj {P Q : List Text} (hP : IsPath P) (hQ : IsPath Q) :
    format P = format Q ↔ P = Q := by
  constructor
  · intro same
    rw [← segments_format hP, same, segments_format hQ]
  · rintro rfl
    rfl

theorem format_eq_nil_iff {P : List Text} (path : IsPath P) : format P = [] ↔ P = [] :=
  Text.join_eq_nil_iff (by decide) fun s member => (path s member).ne_nil

/-- One segment further down. -/
theorem format_concat {P : List Text} (path : IsPath P) (s : Text) :
    format (P ++ [s]) = if (format P).isEmpty then s else format P ++ separator ++ s := by
  cases P with
  | nil => simp [format]
  | cons first P =>
      have some_ : (format (first :: P)).isEmpty = false := by
        simp [List.isEmpty_eq_false_iff, format_eq_nil_iff path]
      rw [some_, if_neg (by simp), format, format, Text.join_append (by simp) (by simp),
        Text.join_singleton]

/-! ## Ancestors and the path above -/

theorem mem_ancestors {name path : Text} :
    path ∈ ancestors name ↔ ∃ P, P ≠ [] ∧ P <+: segments name ∧ path = format P := by
  rw [ancestors, List.mem_map]
  constructor
  · rintro ⟨i, short, rfl⟩
    rw [List.mem_range] at short
    refine ⟨(segments name).take (i + 1), ?_, List.take_prefix _ _, rfl⟩
    intro empty
    have length := congrArg List.length empty
    rw [List.length_take, List.length_nil] at length
    omega
  · rintro ⟨P, some_, initial, rfl⟩
    have positive : 0 < P.length := List.length_pos_iff.mpr some_
    refine ⟨P.length - 1, List.mem_range.mpr ?_, ?_⟩
    · have := initial.length_le
      omega
    · rw [Nat.sub_add_cancel positive, ← List.prefix_iff_eq_take.mp initial]

theorem format_mem_ancestors {P : List Text} {name : Text} (path : IsPath P) (some_ : P ≠ []) :
    format P ∈ ancestors name ↔ P <+: segments name := by
  rw [mem_ancestors]
  constructor
  · rintro ⟨Q, -, initial, same⟩
    rw [format_inj path ((isPath_segments name).of_initial initial)] at same
    exact same ▸ initial
  · exact fun initial => ⟨P, some_, initial, rfl⟩

theorem normalize_mem_ancestors {name : Text} (some_ : segments name ≠ []) :
    normalize name ∈ ancestors name :=
  (format_mem_ancestors (isPath_segments name) some_).mpr List.prefix_rfl

theorem nodup_ancestors (name : Text) : (ancestors name).Nodup := by
  refine (List.nodup_map_iff_inj_on List.nodup_range).mpr fun i short j short' same => ?_
  have path := isPath_segments name
  rw [format_inj (path.of_initial (List.take_prefix _ _))
    (path.of_initial (List.take_prefix _ _))] at same
  have lengths := congrArg List.length same
  rw [List.length_take, List.length_take] at lengths
  rw [List.mem_range] at short short'
  omega

/-- The path above a path is the path without its last segment, unless nothing is left. -/
theorem parent?_format {P : List Text} (path : IsPath P) :
    parent? (format P) = if P.dropLast = [] then none else some (format P.dropLast) := by
  have above : IsPath P.dropLast := path.of_initial (List.dropLast_prefix P)
  rw [parent?, Place.ofName, Place.ofSegments, segments_format path]
  by_cases root : P.dropLast = []
  · simp [root, format]
  · simp [root, List.isEmpty_iff, format_eq_nil_iff above]

end CodeAtlas.Hierarchy
