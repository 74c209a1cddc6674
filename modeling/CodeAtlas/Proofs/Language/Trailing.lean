/-
# Proofs.Language.Trailing -- annotations behind code

An annotation may stand behind code, on the same line (`annotatedCode`).  The comment begins at the
first line marker, and that need not be the one in front of the annotation: code may have a marker of
its own, in an address or in a text, or end with what the marker begins with.

* If the line neither begins with the marker nor is all block comment, its comment is the annotation
  with some end of the code and the marker in front of it (`classify_of_inner`).
* What has no keyword does not matter in front of a space (`direct_append`), and no marker of a
  packaged language has a letter of the keyword (`unkeyed_of_packaged`).

So code without the keyword cannot hide the annotation behind it (`scan_annotatedCode`).
-/
import CodeAtlas.Proofs.Language.Comment

namespace CodeAtlas

set_option autoImplicit false

/-! ## What stands in front -/

namespace Scan.Annotation

theorem afterKeyword?_eq_none_iff {t : Text} :
    afterKeyword? t = none ↔ ¬ keyword <+: t.map Char.toLower := by
  have same : (t.take keyword.length).map Char.toLower = keyword ↔
      keyword <+: t.map Char.toLower := by
    rw [List.prefix_iff_eq_take, List.map_take, eq_comm]
  rw [afterKeyword?, ← same]
  by_cases begins : (t.take keyword.length).map Char.toLower = keyword <;> simp [begins]

/-- **What has no keyword does not matter** in front of a space. -/
theorem direct_append {u : Text} (absent : ¬ keyword <:+: u.map Char.toLower) (t : Text) :
    direct (u ++ ' ' :: t) = direct (' ' :: t) := by
  induction u with
  | nil => rfl
  | cons c u ih =>
      -- The keyword has no space in it, so that it would have to begin and end in front of the space.
      have here : afterKeyword? (c :: (u ++ ' ' :: t)) = none := by
        rw [afterKeyword?_eq_none_iff, ← List.cons_append, List.map_append]
        exact fun begins => absent (Text.prefix_of_prefix_append_cons (by decide) begins).isInfix
      rw [List.cons_append, direct, here, Option.bind_none, Option.orElse_eq_orElse,
        Option.orElse_eq_or, Option.none_or]
      exact ih fun inside => absent (inside.trans (List.suffix_cons _ _).isInfix)

end Scan.Annotation

namespace Language

section Markers

variable {m : Scan.Markers}

theorem wholeBlockComment?_eq_none {t : Text}
    (unblocked : ∀ start stop, m.block? = some (start, stop) → ¬ (start <+: t ∧ stop <:+ t)) :
    Scan.wholeBlockComment? m t = none := by
  rw [Scan.wholeBlockComment?, Option.bind_eq_none_iff]
  rintro ⟨start, stop⟩ declared
  refine if_neg fun whole => ?_
  simp only [Bool.and_eq_true, List.isPrefixOf_iff_prefix, List.isSuffixOf_iff_suffix] at whole
  exact unblocked start stop declared whole.1

/-- The comment on a line that neither begins with the line marker nor is all block comment begins
behind the first line marker, wherever else there is one. -/
theorem classify_of_inner {marker line code t : Text} (declared : m.line? = some marker)
    (trimmed : Text.trim line = code ++ marker ++ t) (inner : ¬ marker <+: Text.trim line)
    (unblocked : ∀ start stop, m.block? = some (start, stop) →
      ¬ (start <+: Text.trim line ∧ stop <:+ Text.trim line)) :
    ∃ back, back <:+ code ++ marker ∧ Scan.classify m line = some ⟨back ++ t, false⟩ := by
  obtain ⟨front, back, found, first⟩ := Text.exists_find?_append marker code t
  have cut : Text.trim line = front ++ marker ++ (back ++ t) := by
    rw [trimmed, first]
    simp only [List.append_assoc]
  have some_ : front ≠ [] := by
    rintro rfl
    exact inner ⟨back ++ t, by simpa using cut.symm⟩
  have inline : Scan.inlineComment? m (Text.trim line) = some ⟨back ++ t, false⟩ := by
    rw [← trimmed] at found
    rw [Scan.inlineComment?, declared, Option.bind_some, found, Option.bind_some,
      if_neg (by simpa using some_), cut, List.drop_left' (by simp)]
  have solid : (Text.trim line).isEmpty = false := by simp [cut, some_]
  refine ⟨back, ⟨front ++ marker, first.symm⟩, ?_⟩
  simp [Scan.classify, solid, wholeLineComment?_eq_none declared inner,
    wholeBlockComment?_eq_none unblocked, inline]

end Markers

/-! ## Annotated code -/

/-- A line of code with an annotation behind it. -/
def annotatedCode (code marker name description : Text) : Text :=
  code ++ marker ++ (" @group " : Text) ++ name ++ (": " : Text) ++ description

section Line

variable {code marker name description : Text}

theorem trim_annotatedCode (solid : Text.isBlank code = false) :
    Text.trim (annotatedCode code marker name description) =
      Text.trimLeft code ++ marker ++
        ((" @group " : Text) ++ (name ++ ':' :: Text.trimRight (' ' :: description))) := by
  have back : Text.trimRight (':' :: ' ' :: description) =
      ':' :: Text.trimRight (' ' :: description) :=
    Text.trimRight_cons rfl
  have shape : annotatedCode code marker name description =
      code ++ (marker ++ (" @group " : Text) ++ name ++ ':' :: ' ' :: description) := by
    simp [annotatedCode]
  rw [shape, Text.trim, Text.trimLeft_append_of_solid solid, ← List.append_assoc,
    Text.trimRight_append _ rfl, back]
  simp only [List.append_assoc]

/-- Neither the code nor a marker without letters of the keyword brings the keyword in. -/
theorem keyword_not_isInfix {back : Text} (ends : back <:+ Text.trimLeft code ++ marker)
    (absent : ¬ Scan.Annotation.keyword <:+: code.map Char.toLower)
    (unkeyed : ∀ c ∈ marker, c.toLower ∉ Scan.Annotation.keyword) :
    ¬ Scan.Annotation.keyword <:+: back.map Char.toLower := by
  have absent' : ¬ Scan.Annotation.keyword <:+: (Text.trimLeft code).map Char.toLower := fun inside =>
    absent (inside.trans ((List.dropWhile_suffix _).map _).isInfix)
  have whole : ¬ Scan.Annotation.keyword <:+: (Text.trimLeft code ++ marker).map Char.toLower := by
    rw [List.map_append]
    exact Text.not_isInfix_append (by decide) absent' (by simpa using unkeyed)
  exact fun inside => whole (inside.trans (ends.map _).isInfix)

/-- The annotation is read with anything in front of it that has no keyword. -/
theorem direct_behind {back t : Text}
    (absent : ¬ Scan.Annotation.keyword <:+: back.map Char.toLower) (named : Named t) :
    Scan.Annotation.direct (back ++ ((" @group " : Text) ++ t)) = some (some (annotationOf t)) := by
  have reached := Scan.Annotation.direct_append absent ("@group ".toList ++ t)
  exact reached.trans (direct_of_named named)

end Line

/-! ## The packaged languages -/

theorem unkeyed_packaged : ∀ d ∈ packaged.languages,
    d.markers.plain.line?.all fun marker =>
      marker.all fun c => !Scan.Annotation.keyword.contains c.toLower && c != '\n' := by
  decide

/-- No line marker of a packaged language has a letter of the keyword or a line feed. -/
theorem unkeyed_of_packaged {d : Descriptor} (known : d ∈ packaged.languages) {marker : Text}
    (declared : d.markers.plain.line? = some marker) :
    ∀ c ∈ marker, c.toLower ∉ Scan.Annotation.keyword ∧ c ≠ '\n' := by
  simpa [declared] using unkeyed_packaged d known

/-- **Code cannot hide an annotation behind it.**  In a packaged language with a line marker, a line
of code without the keyword, with the marker and an annotation behind it, is read as the one group that
is annotated, at that line alone, provided that the line neither begins with the marker nor begins and
ends as a block comment does. -/
theorem scan_annotatedCode {d : Descriptor} (known : d ∈ packaged.languages)
    {code marker name description : Text} (declared : d.markers.plain.line? = some marker)
    (solid : Text.isBlank code = false) (single : '\n' ∉ code)
    (absent : ¬ Scan.Annotation.keyword <:+: code.map Char.toLower)
    (named : Text.isBlank name = false) (plain : ':' ∉ name) (single' : '\n' ∉ name)
    (single'' : '\n' ∉ description)
    (inner : ¬ marker <+: Text.trim (annotatedCode code marker name description))
    (unblocked : ∀ start stop, d.markers.plain.block? = some (start, stop) →
      ¬ (start <+: Text.trim (annotatedCode code marker name description) ∧
        stop <:+ Text.trim (annotatedCode code marker name description)))
    (ready : Entries (List Pattern)) (path : Text) :
    let s : Scan.Scanner := { table := packaged, ready }
    let line := annotatedCode code marker name description
    let group := Group.placed
      { functionality := Text.lower (Text.trim name)
        filePath := path
        lines := [1]
        description := Text.trim description }
    (s.reader d).groups path (Text.splitOn '\n' line) = .ok [group] ∧
      ∀ languageId, packaged.resolve? languageId (some path) = some d →
        (s.scan line path languageId).1 = .ok [group] := by
  intro s line group
  have unkeyed := unkeyed_of_packaged known declared
  obtain ⟨back, ends, comment⟩ :=
    classify_of_inner declared (trim_annotatedCode solid) inner unblocked
  have unkeyed' := keyword_not_isInfix ends absent fun c member => (unkeyed c member).1
  have unbroken : '\n' ∉ line := by
    have free : '\n' ∉ marker := fun member => (unkeyed '\n' member).2 rfl
    simp [line, annotatedCode, single, single', single'', free]
  have unbroken' : '\n' ∉ back ++
      ((" @group " : Text) ++ (name ++ ':' :: Text.trimRight (' ' :: description))) := fun member => by
    obtain ⟨front, whole⟩ := ends
    refine unbroken (Text.mem_of_mem_trim ?_)
    rw [trim_annotatedCode solid, ← whole, List.append_assoc]
    exact List.mem_append_right _ member
  have meant : annotationOf (name ++ ':' :: Text.trimRight (' ' :: description)) =
      { name := Text.lower (Text.trim name), description := Text.trim description } := by
    rw [annotationOf_append_colon plain, Text.trim_trimRight, Text.trim_cons_of_blank (by decide)]
  have read := Scan.Annotation.read_of_direct unbroken'
    (direct_behind unkeyed' (named_append_colon plain named _)) (s.extras d)
  rw [meant] at read
  have found : (s.reader d).groups path (Text.splitOn '\n' line) = .ok [group] := by
    rw [Text.splitOn_of_not_mem unbroken]
    exact groups_of_classify (r := s.reader d) (Scan.dependable_packaged.markers d known) comment read path
  refine ⟨found, fun languageId resolved => ?_⟩
  rw [Scan.Scanner.scan, Scan.Scanner.scanLines, show s.table.resolve? _ _ = some d from resolved]
  exact found

/-- An address in the code has the marker, too. -/
theorem scan_annotatedCode_address :
    let code : Text := "  get(\"http://host\");  "
    let line := annotatedCode code "//" "Auth > Login " "asks: the host "
    line = "  get(\"http://host\");  // @group Auth > Login : asks: the host ".toList ∧
      (Scan.Scanner.scan { table := packaged } line "a.go" none).1 =
        .ok [Group.placed
          { functionality := "auth > login"
            filePath := "a.go"
            lines := [1]
            description := "asks: the host" }] := by
  intro code line
  have language : (packaged.resolve? none (some "a.go".toList)).map (·.markers.plain) =
      some { line := some "//", blockStart := some "/*", blockEnd := some "*/" } := by
    decide
  obtain ⟨d, resolved, markers⟩ := Option.map_eq_some_iff.mp language
  have absent : ¬ Scan.Annotation.keyword <:+: code.map Char.toLower := fun inside =>
    absurd (inside.subset (by decide : '@' ∈ Scan.Annotation.keyword)) (by decide)
  have inner : ¬ "//".toList <+: Text.trim line := by decide
  have unblocked : ∀ start stop, d.markers.plain.block? = some (start, stop) →
      ¬ (start <+: Text.trim line ∧ stop <:+ Text.trim line) := by
    intro start stop declared
    have block : d.markers.plain.block? = some ("/*".toList, "*/".toList) := by
      rw [markers]
      decide
    rw [block] at declared
    cases declared
    exact fun both => absurd both.1 (by decide)
  have name : Text.lower (Text.trim ("Auth > Login " : Text)) = "auth > login".toList := by
    decide
  have description : Text.trim ("asks: the host " : Text) = "asks: the host".toList := by decide
  have read := (scan_annotatedCode (Scan.mem_languages_of_resolve? resolved)
    (by rw [markers]; decide) (by decide) (by decide) absent (by decide) (by decide)
    (by decide) (by decide) inner unblocked [] "a.go").2 none resolved
  rw [name, description] at read
  exact ⟨by decide, read⟩

end Language

end CodeAtlas
