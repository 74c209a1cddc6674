/-
# Proofs.Naming.Renamed -- a suggested hierarchy says the same as the name

A suggested hierarchy is made of canonical words: the first ones as a title, the delimiter, and the
others as a title.  A canonical word holds characters of the name in lower case and letters that a
vocabulary has written (`of_mem_canonicalWord`), so there is no delimiter in it if there is none in the
name, and each of the two titles is one segment (`isSegment_title`).

Of basic characters the canonical words of a title are the words it is made of, since the capitals are
all that has been added (`canonicalWords_title`).  So with a space for the delimiter, the suggested
name has the canonical words of the name, in the same order (`hierarchies_faithful`).  With other
characters it need not have: `ß` has no capital but `SS`.
-/
import CodeAtlas.Proofs.Hierarchy.Path
import CodeAtlas.Proofs.Naming.Canonical
import CodeAtlas.Proofs.Naming.Prefixes
import CodeAtlas.Proofs.Text.Capital

namespace CodeAtlas.Naming

set_option autoImplicit false

open Text (IsBasic)

variable {c : Char} {word name : Text} {words : List Text} {groups : List Group}

/-! ## Characters of canonical words -/

/-- **A character of a canonical word** comes from the name in lower case, or is a letter. -/
theorem of_mem_canonicalWord (canonical : word ∈ canonicalWords name) (member : c ∈ word) :
    c ∈ Text.lower name ∨ isLetter c = true := by
  have solid (c : Char) (inside : c ∈ word) : c ≠ ' ' := by
    rintro rfl
    exact absurd ((areWords_canonicalWords name word canonical).2 ' ' inside) (by decide)
  rw [canonicalWords_eq] at canonical
  obtain ⟨front, back, stands⟩ := Text.exists_standsIn canonical
  have inside : c ∈ substitute wordForms (substitute abbreviations (Text.lower name)) := by
    rw [stands.whole]
    exact List.mem_append_left _ (List.mem_append_right _ member)
  have letter {v : Vocabulary} (spelled : Spelled v) : (∃ e ∈ v, c ∈ e.2) → isLetter c = true := by
    rintro ⟨e, known, written⟩
    exact (of_mem_of_isSpelled (spelled.texts e known) written).resolve_right (solid c member)
  have pass := substituted (fun e known => (spelled_abbreviations.solid e known).1) none
    (Text.lower name)
  have pass' := substituted (fun e known => (spelled_wordForms.solid e known).1) none
    (substitute abbreviations (Text.lower name))
  rcases pass'.mem_or inside with before | written
  · exact (pass.mem_or before).imp_right (letter spelled_abbreviations)
  · exact .inr (letter spelled_wordForms written)

theorem delimiter_not_mem_canonicalWord (flat : Hierarchy.delimiter ∉ name)
    (canonical : word ∈ canonicalWords name) : Hierarchy.delimiter ∉ word := by
  intro member
  rcases of_mem_canonicalWord canonical member with before | letter
  · exact flat (Text.mem_of_mem_lower (by decide) (by decide) before)
  · exact absurd letter (by decide)

theorem isBasic_canonicalWord (basic : IsBasic name) (canonical : word ∈ canonicalWords name) :
    IsBasic word := by
  intro c member
  rcases of_mem_canonicalWord canonical member with before | letter
  · exact Text.isBasic_lower basic c before
  · simp only [isLetter, Bool.and_eq_true, Nat.ble_eq] at letter
    omega

/-! ## Titles -/

/-- **The title of words without a delimiter is a segment.** -/
theorem isSegment_title (some_ : words ≠ []) (solid : AreWords words)
    (flat : ∀ w ∈ words, Hierarchy.delimiter ∉ w) : Hierarchy.IsSegment (title words) where
  ne_nil := by
    have visible : ∀ w ∈ words.map Text.capitalize, w ≠ [] := by
      rw [List.forall_mem_map]
      exact fun w member => Text.capitalize_ne_nil (solid w member).1
    rw [title, Ne, Text.join_eq_nil_iff (by decide) visible, List.map_eq_nil_iff]
    exact some_
  trimmed := by
    refine Text.trimmed_join fun piece capital => ?_
    obtain ⟨w, known, rfl⟩ := List.mem_map.mp capital
    exact ⟨Text.capitalize_ne_nil (solid w known).1, Text.unbroken_capitalize (solid w known).2⟩
  no_delimiter := by
    intro member
    rcases Text.mem_join member with glue | ⟨piece, capital, inside⟩
    · exact absurd glue (by decide)
    · obtain ⟨w, known, rfl⟩ := List.mem_map.mp capital
      rcases Text.of_mem_capitalize inside with before | ⟨other, -⟩
      · exact flat w known before
      · exact other rfl

/-- **The canonical words of a title** of basic canonical words are these words. -/
theorem canonicalWords_title
    (canonical : ∀ w ∈ words, IsBasic w ∧ ∃ x, w ∈ canonicalWords x) :
    canonicalWords (title words) = words := by
  have each : ∀ w ∈ words, canonicalWords (Text.capitalize w) = [w] := by
    intro w member
    obtain ⟨basic, x, known⟩ := canonical w member
    have lowered := lowered_canonicalWords known
    rw [canonicalWords_eq, Text.lower_capitalize basic lowered, ← Text.lower_of_lowered lowered,
      ← canonicalWords_eq, Text.lower_of_lowered lowered, canonicalWords_of_mem known]
  rw [title, wordwise_canonicalWords.join, List.flatMap_map, List.flatMap_congr each,
    List.flatMap_singleton']

/-! ## The delimiter made a space -/

/-- Two segments with a space for the delimiter between them. -/
theorem replace_delimiter {above below : Text} (flat : Hierarchy.delimiter ∉ above)
    (flat' : Hierarchy.delimiter ∉ below) :
    Text.replace [Hierarchy.delimiter] " " (Hierarchy.format [above, below]) =
      above ++ ' ' :: ' ' :: ' ' :: below := by
  have stays {t : Text} (absent : Hierarchy.delimiter ∉ t) :
      t.map (fun c => if c = Hierarchy.delimiter then ' ' else c) = t := by
    refine (List.map_congr_left fun c member => ?_).trans (List.map_id t)
    refine if_neg ?_
    rintro rfl
    exact absent member
  have spread : Hierarchy.format [above, below] = above ++ ' ' :: '>' :: ' ' :: below := by
    rw [Hierarchy.format, Text.join_cons_cons, Text.join_singleton, List.append_assoc]
    rfl
  have single : (" " : Text) = [' '] := rfl
  rw [spread, single, Text.replace_singleton, List.map_append, stays flat]
  simp only [List.map_cons, stays flat']
  rfl

/-! ## A name taken apart -/

section Apart

variable {size : Nat} (flat : Hierarchy.delimiter ∉ name) (positive : 0 < size)
  (short : size < (canonicalWords name).length)

include flat positive short

/-- Either part of the canonical words is made one segment. -/
theorem isSegment_parts :
    Hierarchy.IsSegment (title ((canonicalWords name).take size)) ∧
      Hierarchy.IsSegment (title ((canonicalWords name).drop size)) := by
  have solid := areWords_canonicalWords name
  constructor
  · refine isSegment_title (List.ne_nil_of_length_pos ?_) (solid.take size) fun w inside =>
      delimiter_not_mem_canonicalWord flat (List.mem_of_mem_take inside)
    rw [List.length_take]
    omega
  · refine isSegment_title (List.ne_nil_of_length_pos ?_)
      (fun w inside => solid w (List.mem_of_mem_drop inside)) fun w inside =>
        delimiter_not_mem_canonicalWord flat (List.mem_of_mem_drop inside)
    rw [List.length_drop]
    omega

theorem segments_takingApart (groups : List Group) :
    Hierarchy.segments (takingApart groups name size).suggested =
      [title ((canonicalWords name).take size), title ((canonicalWords name).drop size)] := by
  obtain ⟨above, below⟩ := isSegment_parts flat positive short
  exact Hierarchy.segments_format (by simp [Hierarchy.IsPath, above, below])

theorem canonicalWords_takingApart (groups : List Group) (basic : IsBasic name) :
    canonicalWords
        (Text.replace [Hierarchy.delimiter] " " (takingApart groups name size).suggested) =
      canonicalWords name := by
  have canonical : ∀ w ∈ canonicalWords name, IsBasic w ∧ ∃ x, w ∈ canonicalWords x :=
    fun w inside => ⟨isBasic_canonicalWord basic inside, name, inside⟩
  obtain ⟨above, below⟩ := isSegment_parts flat positive short
  rw [takingApart, replace_delimiter above.no_delimiter below.no_delimiter,
    wordwise_canonicalWords.append_cons _ ' ' _ (by decide),
    wordwise_canonicalWords.cons (by decide), wordwise_canonicalWords.cons (by decide),
    canonicalWords_title fun w inside => canonical w (List.mem_of_mem_take inside),
    canonicalWords_title fun w inside => canonical w (List.mem_of_mem_drop inside),
    List.take_append_drop]

end Apart

/-- **A suggested hierarchy says what the name says.**  It has two segments, and if the name has only
basic characters, then with a space for the delimiter it has the canonical words of the name, in the
same order, and is normalized to the same name. -/
theorem hierarchies_faithful (groups : List Group) : ∀ s ∈ hierarchies groups,
    (Hierarchy.Place.ofName s.suggested).segments.length = 2 ∧
    (IsBasic s.current →
      canonicalWords (Text.replace [Hierarchy.delimiter] " " s.suggested) =
        canonicalWords s.current ∧
      normalize (Text.replace [Hierarchy.delimiter] " " s.suggested) = normalize s.current) := by
  intro s member
  obtain ⟨known, size, positive, ⟨⟨bounded, -⟩, -⟩, apart⟩ := of_mem_hierarchies member
  have flat := delimiter_not_mem_of_flat known
  have short : size < (canonicalWords s.current).length := by omega
  constructor
  · have segments := segments_takingApart flat positive short groups
    rw [apart] at segments
    rw [Hierarchy.Place.ofName, Hierarchy.Place.ofSegments, segments]
    rfl
  · intro basic
    have same := canonicalWords_takingApart flat positive short groups basic
    rw [apart] at same
    exact ⟨same, normalize_congr (by rw [same])⟩

/-- Names with abbreviations, a word form and a prefix of two words that is written in two ways. -/
def authNames : List Group :=
  ["Auth DB config".toList, "Authenticated database  timestamp"].map fun name =>
    { functionality := name, filePath := "a.js", lines := [1] }

/-- The name is spelled out and divided, and means what it meant. -/
theorem hierarchies_faithful_auth :
    (hierarchies authNames).map (fun s => (s.current, s.suggested)) =
        [("Auth DB config".toList, "Authentication Database > Configuration".toList),
          ("Authenticated database  timestamp".toList, "Authentication Database > Date Time".toList)] ∧
      canonicalWords (Text.replace ">" " " "Authentication Database > Configuration") =
        canonicalWords "Auth DB config" := by
  have given : (hierarchies authNames).map (fun s => (s.current, s.suggested)) =
      [("Auth DB config".toList, "Authentication Database > Configuration".toList),
        ("Authenticated database  timestamp".toList, "Authentication Database > Date Time".toList)] := by
    decide +kernel
  obtain ⟨s, member, same⟩ := List.mem_map.mp (given ▸ List.mem_cons_self)
  obtain ⟨current, suggested⟩ := Prod.mk.inj same
  have basic : IsBasic s.current := by
    rw [current]
    decide
  have faithful := ((hierarchies_faithful authNames s member).2 basic).1
  rw [current, suggested] at faithful
  exact ⟨given, faithful⟩

end CodeAtlas.Naming
