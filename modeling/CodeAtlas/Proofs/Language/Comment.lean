/-
# Proofs.Language.Comment -- which annotation comments are read again

What stands around an annotation in a new comment is chosen by the type of the file, from lists of
its own (`commentSyntax`); the markers by which the comment is read come from the language table.
Nothing ties the two together.

* Where they agree (`reads`), the comment is all of its line, and its text is the annotation with
  white space around it (`classify_of_reads`).
* What stands in the comment is read as its first colon cuts it (`annotationOf`, `direct_around`).  A
  valid name has no colon and is not blank, so the colon behind the name begins the description
  (`annotationOf_annotationText`).
* A line without the line marker of a language that has no blocks carries no comment in it
  (`classify_of_absent`).

So the packaged languages read the comments for a supported type as they were meant, unless it is
one of `unreadTypes`: those have markers that `commentSyntax` does not know
(`scan_annotationComment_iff`).
-/
import CodeAtlas.Language.Comment
import CodeAtlas.Proofs.Hierarchy.Valid
import CodeAtlas.Proofs.Scan.Annotation
import CodeAtlas.Proofs.Scan.Found

namespace CodeAtlas.Language

set_option autoImplicit false

/-! ## The annotation -/

/-- The annotation that the first colon of a text cuts it into. -/
def annotationOf (t : Text) : Scan.Annotation :=
  { name := Text.lower (Text.trim (Text.cut ':' t).1)
    description := Text.trim ((Text.cut ':' t).2.getD []) }

/-- There is a name in front of the first colon. -/
def Named (t : Text) : Prop := Text.trim (Text.cut ':' t).1 ≠ []

theorem annotationOf_append_colon {name : Text} (plain : ':' ∉ name) (t : Text) :
    annotationOf (name ++ ':' :: t) =
      { name := Text.lower (Text.trim name), description := Text.trim t } := by
  rw [annotationOf, Text.cut_append plain, Option.getD_some]

theorem named_append_colon {name : Text} (plain : ':' ∉ name) (solid : Text.isBlank name = false)
    (t : Text) : Named (name ++ ':' :: t) := by
  rw [Named, Text.cut_append plain, ne_eq, ← Text.isBlank_iff_trim, solid]
  exact Bool.false_ne_true

section Texts

variable {t t' : Text}

theorem annotationOf_of_endsLike (ends : Text.EndsLike t t') : annotationOf t = annotationOf t' := by
  obtain ⟨name, description⟩ := ends.trim_cut (by decide : Text.isBlankChar ':' = false)
  rw [annotationOf, annotationOf, name, description]

theorem named_of_endsLike (ends : Text.EndsLike t t') : Named t ↔ Named t' := by
  rw [Named, Named, (ends.trim_cut (by decide : Text.isBlankChar ':' = false)).1]

theorem isBlank_of_named (named : Named t) : Text.isBlank t = false := by
  by_contra blank
  rw [Bool.not_eq_false] at blank
  have absent : ':' ∉ t := fun member =>
    absurd (List.all_eq_true.mp blank ':' member) (by decide)
  rw [Named, Text.cut_of_not_mem absent] at named
  exact named (Text.isBlank_iff_trim.mp blank)

end Texts

section Names

variable {name : Text}

theorem colon_not_mem_of_isValid (valid : Hierarchy.isValid name = true) : ':' ∉ name := by
  intro member
  rcases Hierarchy.of_mem_of_isValid valid member with same | letter
  · exact absurd same (by decide)
  · exact absurd letter (by decide)

/-- What begins with a valid name has one. -/
theorem named_append (valid : Hierarchy.isValid name = true) (t : Text) : Named (name ++ t) := by
  have solid : Text.isBlank name = false := by
    rw [Bool.eq_false_iff, ne_eq, Text.isBlank_iff_trim]
    exact Hierarchy.trim_ne_nil_of_isValid valid
  rw [Text.isBlank] at solid
  rw [Named, Text.cut_append_left (colon_not_mem_of_isValid valid), ne_eq, ← Text.isBlank_iff_trim]
  simp [Text.isBlank, solid]

end Names

/-- A name and what is said about it, if anything is. -/
def annotationText (name description : Text) : Text :=
  if description.isEmpty then name else name ++ ':' :: ' ' :: description

/-- The tags of an annotation. -/
def tagText (tags : List Text) : Text :=
  if tags.isEmpty then [] else (" #" : Text) ++ Text.join " #" tags

@[simp] theorem tagText_nil : tagText [] = [] := rfl

theorem annotationComment_eq (name : Text) (description? : Option Text) (tags : List Text)
    (fileType : Text) :
    annotationComment name description? tags fileType =
      (commentSyntax fileType).1 ++
        (annotationText name (description?.getD []) ++ tagText tags) ++
          (commentSyntax fileType).2 := by
  unfold annotationComment annotationText tagText
  cases description? with
  | none => simp
  | some description => cases empty : description.isEmpty <;> simp [Option.filter, empty]

/-- What stands behind the name of an annotation, if anything does. -/
theorem exists_annotationText_eq (name description : Text) :
    ∃ t, annotationText name description = name ++ t := by
  unfold annotationText
  split
  · exact ⟨[], (List.append_nil name).symm⟩
  · exact ⟨_, rfl⟩

theorem annotationOf_annotationText {name : Text} (valid : Hierarchy.isValid name = true)
    (description : Text) :
    annotationOf (annotationText name description) =
      { name := Text.lower (Text.trim name), description := Text.trim description } := by
  have plain := colon_not_mem_of_isValid valid
  cases description with
  | nil =>
      -- without a description there is no colon
      have bare : annotationText name [] = name := rfl
      rw [bare, annotationOf, Text.cut_of_not_mem plain]
      rfl
  | cons c d =>
      rw [annotationText, if_neg (by simp), annotationOf_append_colon plain,
        Text.trim_cons_of_blank (by decide)]

/-- The keyword is found behind a space. -/
theorem direct_keyword {t : Text} {found : Option Scan.Annotation}
    (after : Scan.Annotation.afterOccurrence t = some found) :
    Scan.Annotation.direct (' ' :: (Scan.Annotation.keyword ++ t)) = some found := by
  have space : Scan.Annotation.afterKeyword? (' ' :: (Scan.Annotation.keyword ++ t)) = none := rfl
  have here : Scan.Annotation.afterKeyword? (Scan.Annotation.keyword ++ t) = some t := by
    have same : Scan.Annotation.keyword.map Char.toLower == Scan.Annotation.keyword := by decide
    rw [Scan.Annotation.afterKeyword?, List.take_left, if_pos same, List.drop_left]
  rw [Scan.Annotation.direct, space, Option.bind_none, Option.orElse_eq_orElse,
    Option.orElse_eq_or, Option.none_or]
  change ((Scan.Annotation.afterKeyword? (Scan.Annotation.keyword ++ t)).bind _ <|> _) = _
  rw [here, Option.bind_some, after]
  rfl

/-- **An annotation is read** as the first colon cuts it. -/
theorem direct_of_named {t : Text} (named : Named t) :
    Scan.Annotation.direct ((" @group " : Text) ++ t) = some (some (annotationOf t)) := by
  rcases parts : Text.cut ':' t with ⟨name, description?⟩
  have solid : Text.trim name ≠ [] := by rwa [Named, parts] at named
  have some_ : Text.trimLeft name ≠ [] := fun none_ => solid (by rw [Text.trim, none_]; rfl)
  have body : Text.cut ':' (Text.trimLeft t) = (Text.trimLeft name, description?) := by
    rw [Text.cut_trimLeft (by decide), parts]
  have begins : Scan.Annotation.nameless (Text.trimLeft t) = false := by
    rw [Bool.eq_false_iff]
    intro nameless
    have none_ : (Text.cut ':' (Text.trimLeft t)).1 = [] := by
      cases front : Text.trimLeft t with
      | nil => rfl
      | cons c rest =>
          have colon : c = ':' := by simpa [front, Scan.Annotation.nameless] using nameless
          simp [Text.cut, colon]
    exact some_ (by rw [← none_, body])
  have after : Scan.Annotation.afterOccurrence (' ' :: t) = some (some (annotationOf t)) := by
    rw [Scan.Annotation.afterOccurrence_cons (by decide)]
    rw [Text.trimLeft] at body begins
    rw [begins, body, annotationOf, parts]
    change some (Scan.Annotation.ofParts? (Text.trimLeft name) _) = _
    rw [Scan.Annotation.ofParts?_of_solid (by rwa [Text.trim_trimLeft]), Text.trim_trimLeft]
  exact direct_keyword after

/-- **An annotation is read as it was meant**, when it is trimmed at its end and when a space
follows. -/
theorem direct_around {t u : Text} (named : Named u)
    (around : t = Text.trimRight u ∨ t = u ++ [' ']) :
    Scan.Annotation.direct ((" @group " : Text) ++ t) = some (some (annotationOf u)) := by
  have ends : Text.EndsLike t u := by
    rcases around with rfl | rfl
    · exact Text.endsLike_trimRight u
    · exact Text.endsLike_concat (by decide) u
  rw [direct_of_named ((named_of_endsLike ends).mpr named), annotationOf_of_endsLike ends]

/-! ## The comment around it -/

/-- Do markers read a comment with these texts around the annotation, whatever the annotation is? -/
def reads (m : Scan.Markers) (around : Text × Text) : Bool :=
  match m.line?, m.block? with
  | some marker, _ =>
      around == (marker ++ (" @group " : Text), []) && Text.trim marker == marker
  | none, some (start, stop) =>
      around == (start ++ (" @group " : Text), ' ' :: stop) && Text.trim start == start &&
        Text.trim stop == stop
  | none, none => false

section Markers

variable {m : Scan.Markers}

theorem ne_nil_of_usable {marker? : Option Text} {marker : Text}
    (usable : Scan.Markers.usable marker? = some marker) : marker ≠ [] := by
  simpa using (Option.filter_eq_some_iff.mp usable).2

theorem ne_nil_of_block? {start stop : Text} (declared : m.block? = some (start, stop)) :
    start ≠ [] ∧ stop ≠ [] := by
  unfold Scan.Markers.block? at declared
  split at declared
  · rename_i starts stops
    cases declared
    exact ⟨ne_nil_of_usable starts, ne_nil_of_usable stops⟩
  · cases declared

theorem wholeLineComment?_eq_none {marker t : Text} (declared : m.line? = some marker)
    (absent : ¬ marker <+: t) : Scan.wholeLineComment? m t = none := by
  rw [Scan.wholeLineComment?, declared, Option.bind_some, Option.map_eq_none_iff,
    Option.eq_none_iff_forall_ne_some]
  intro rest after
  rw [Text.after?_eq_some_iff] at after
  exact absent (after ▸ List.prefix_append marker rest)

/-- A comment behind the line marker is what is left of its line. -/
theorem classify_of_lineMarker {marker line t : Text} (declared : m.line? = some marker)
    (trimmed : Text.trim line = marker ++ t) : Scan.classify m line = some ⟨t, true⟩ := by
  have some_ : marker ≠ [] := ne_nil_of_usable declared
  have whole : Scan.wholeLineComment? m (marker ++ t) = some ⟨t, true⟩ := by
    rw [Scan.wholeLineComment?, declared, Option.bind_some, Text.after?_eq_some_iff.mpr rfl]
    rfl
  simp [Scan.classify, trimmed, some_, whole]

/-- A comment between block markers is what is between them, when there is no line marker. -/
theorem classify_of_block {start stop line t : Text} (none_ : m.line? = none)
    (declared : m.block? = some (start, stop)) (trimmed : Text.trim line = start ++ t ++ stop) :
    Scan.classify m line = some ⟨t, true⟩ := by
  have fits : start.length + stop.length ≤ (start ++ t ++ stop).length := by
    simp only [List.length_append]
    omega
  have whole : Scan.wholeBlockComment? m (start ++ t ++ stop) = some ⟨t, true⟩ := by
    have begins : start.isPrefixOf (start ++ t ++ stop) = true := by simp
    have ends : stop.isSuffixOf (start ++ t ++ stop) = true := by
      rw [List.isSuffixOf_iff_suffix]
      exact List.suffix_append _ _
    rw [Scan.wholeBlockComment?, declared]
    simp only [Option.bind_some, begins, ends, fits, decide_true, Bool.and_self, if_true]
    rw [List.take_left' (by simp only [List.length_append]; omega), List.drop_left' rfl]
  have before : Scan.wholeLineComment? m (start ++ t ++ stop) = none := by
    rw [Scan.wholeLineComment?, none_]
    rfl
  have solid : (Text.trim line).isEmpty = false := by
    simp [trimmed, (ne_nil_of_block? declared).1]
  rw [← trimmed] at whole before
  simp [Scan.classify, solid, before, whole]

/-- **Which comment is read**: behind the space and the keyword stands the annotation, trimmed at
its end or followed by a space. -/
theorem classify_of_reads {around : Text × Text} (reads_ : reads m around = true) {t : Text}
    (solid : Text.isBlank t = false) :
    ∃ t', (t' = Text.trimRight t ∨ t' = t ++ [' ']) ∧
      Scan.classify m (around.1 ++ t ++ around.2) = some ⟨(" @group " : Text) ++ t', true⟩ := by
  unfold reads at reads_
  split at reads_
  · rename_i marker declared
    simp only [Bool.and_eq_true, beq_iff_eq] at reads_
    obtain ⟨rfl, trimmed⟩ := reads_
    have kept : Text.trim (marker ++ (" @group " : Text) ++ t ++ []) =
        marker ++ ((" @group " : Text) ++ Text.trimRight t) := by
      rw [List.append_nil, List.append_assoc, Text.trim,
        Text.trimLeft_append (trimmed ▸ Text.trimmed_trim marker) (ne_nil_of_usable declared),
        ← List.append_assoc, Text.trimRight_append _ solid, List.append_assoc]
    exact ⟨_, .inl rfl, classify_of_lineMarker declared kept⟩
  · rename_i start stop none_ declared
    simp only [Bool.and_eq_true, beq_iff_eq] at reads_
    obtain ⟨⟨rfl, trimmed⟩, trimmed'⟩ := reads_
    obtain ⟨some_, some_'⟩ := ne_nil_of_block? declared
    have kept : Text.trim (start ++ (" @group " : Text) ++ t ++ ' ' :: stop) =
        start ++ ((" @group " : Text) ++ (t ++ [' '])) ++ stop := by
      have whole := Text.trimmed_append (trimmed ▸ Text.trimmed_trim start)
        (trimmed' ▸ Text.trimmed_trim stop) some_ some_' ((" @group " : Text) ++ (t ++ [' ']))
      rw [← Text.trim_of_trimmed whole]
      simp
    exact ⟨_, .inr rfl, classify_of_block none_ declared kept⟩
  · cases reads_

/-- In a line without the line marker there is no comment, when there are no blocks. -/
theorem classify_of_absent {marker line : Text} (declared : m.line? = some marker)
    (none_ : m.block? = none) (absent : ¬ marker <:+: line) : Scan.classify m line = none := by
  have absent' : ¬ marker <:+: Text.trim line := fun inside =>
    absent (inside.trans (Text.trim_isInfix line))
  have whole : Scan.wholeLineComment? m (Text.trim line) = none :=
    wholeLineComment?_eq_none declared fun begins => absent' begins.isInfix
  have inline : Scan.inlineComment? m (Text.trim line) = none := by
    rw [Scan.inlineComment?, declared, Option.bind_some, Text.find?_eq_none_iff.mpr absent']
    rfl
  simp [Scan.classify, whole, inline, Scan.wholeBlockComment?, Scan.inlineBlockComment?, none_]

end Markers

/-! ## A document of one line -/

section Document

variable {r : Scan.Reader} {line : Text}

theorem groups_of_classify {comment : Scan.Comment} {a : Scan.Annotation}
    (plain : r.markers.allPlain = true)
    (carried : Scan.classify r.markers.plain line = some comment)
    (read : Scan.Annotation.read r.main r.extras comment.text = .ok (some a)) (path : Text) :
    r.groups path [line] = .ok [Group.placed
      { functionality := a.name, filePath := path, lines := [1], description := a.description }] := by
  have alone : Scan.captured r.strategy r.markers.plain line [] = 0 :=
    Nat.le_zero.mp (Scan.captured_le_length r.strategy line [])
  have step : r.step line [] = .ok (some a, 0) := by
    simp only [Scan.Reader.step, Scan.classify_of_allPlain plain, carried, Run.ok_bind, read,
      Scan.captured_of_allPlain plain, alone]
    split <;> rfl
  simp only [Scan.Reader.groups, Scan.Reader.findings, step, Run.ok_bind, List.drop_nil]
  rfl

theorem groups_of_no_comment (plain : r.markers.allPlain = true)
    (none_ : Scan.classify r.markers.plain line = none) (path : Text) :
    r.groups path [line] = .ok [] := by
  have step : r.step line [] = .ok (none, 0) := by
    simp only [Scan.Reader.step, Scan.classify_of_allPlain plain, none_, Run.ok_bind]
    rfl
  simp only [Scan.Reader.groups, Scan.Reader.findings, step, Run.ok_bind, List.drop_nil]
  rfl

end Document

/-! ## The packaged languages -/

/-- The packaged language of a file type. -/
def packagedLanguage? (fileType : Text) : Option Descriptor :=
  packaged.find? fileType <|> packaged.default?

/-- Supported types whose language has other markers than those that a new comment is given. -/
def unreadTypes : List Text :=
  ["pyw", "pyi", "ps1", "psm1", "psd1", "lhs", "vbs", "vb", "pm", "t", "clj", "cljs", "cljc", "edn",
   "erl", "hrl", "jl", "cr", "f", "for", "f90", "f95", "f03", "f08", "asm", "s", "ex", "exs",
   "coffee", "tcl"].map String.toList

/-- The markers of all other supported types are those that a new comment is given. -/
theorem reads_supported : ∀ t ∈ supportedFileTypes, t ∉ unreadTypes →
    (packagedLanguage? t).any fun d => reads d.markers.plain (commentSyntax t) := by
  decide +kernel

/-- The language of the type has a line marker only, and it does not occur in the line. -/
def unmarked (fileType line : Text) : Bool :=
  (packagedLanguage? fileType).any fun d =>
    d.markers.plain.block?.isNone &&
      d.markers.plain.line?.any fun marker => (Text.find? marker line).isNone

/-- A new comment for an unread type need not hold the marker of its language. -/
theorem unmarked_unread : ∀ t ∈ unreadTypes,
    unmarked t (annotationComment "a" (some []) [] t) = true := by
  decide

section Packaged

variable {path : Text} {ready : Entries (List Pattern)}

/-- A document of one line is read with the language for the type of its file. -/
theorem scan_line {d : Descriptor} (language : packagedLanguage? (fileType path) = some d)
    {line : Text} (single : '\n' ∉ line) :
    (Scan.Scanner.scan { table := packaged, ready } line path none).1 =
      (Scan.Scanner.reader { table := packaged, ready } d).groups path [line] := by
  have resolved : packaged.resolve? none (some path) = some d := language
  rw [Scan.Scanner.scan, Scan.Scanner.scanLines, Text.splitOn_of_not_mem single, resolved]

theorem allPlain_of_packagedLanguage? {d : Descriptor}
    (language : packagedLanguage? (fileType path) = some d) : d.markers.allPlain = true := by
  have resolved : packaged.resolve? none (some path) = some d := language
  exact Scan.dependable_packaged.markers d (Scan.mem_languages_of_resolve? resolved)

theorem newline_not_mem_commentSyntax (t : Text) :
    '\n' ∉ (commentSyntax t).1 ∧ '\n' ∉ (commentSyntax t).2 := by
  unfold commentSyntax
  dsimp only
  split_ifs <;> decide

theorem newline_not_mem_annotationText {name description : Text} (single : '\n' ∉ name)
    (single' : '\n' ∉ description) : '\n' ∉ annotationText name description := by
  unfold annotationText
  split <;> simp [single, single']

theorem newline_not_mem_annotationComment {name description : Text} (single : '\n' ∉ name)
    (single' : '\n' ∉ description) (t : Text) :
    '\n' ∉ annotationComment name (some description) [] t := by
  simp [annotationComment_eq, newline_not_mem_commentSyntax t,
    newline_not_mem_annotationText single single']

theorem newline_not_mem_tagText {tags : List Text} (single : ∀ tag ∈ tags, '\n' ∉ tag) :
    '\n' ∉ tagText tags := by
  unfold tagText
  split
  · simp
  · rw [List.mem_append, not_or]
    refine ⟨by decide, fun member => ?_⟩
    rcases Text.mem_join member with glue | ⟨tag, known, inside⟩
    · exact absurd glue (by decide)
    · exact single tag known inside

/-- **What is put into a new comment is read as its first colon cuts it**, when the type of the file is
not unread. -/
theorem scan_commentSyntax (supported : fileType path ∈ supportedFileTypes)
    (read : fileType path ∉ unreadTypes) {t : Text} (named : Named t) (single : '\n' ∉ t) :
    (Scan.Scanner.scan { table := packaged, ready }
        ((commentSyntax (fileType path)).1 ++ t ++ (commentSyntax (fileType path)).2) path none).1 =
      .ok [Group.placed
        { functionality := (annotationOf t).name
          filePath := path
          lines := [1]
          description := (annotationOf t).description }] := by
  obtain ⟨d, language, reads_⟩ := (Option.any_eq_true _ _).mp (reads_supported _ supported read)
  obtain ⟨t', around, comment⟩ := classify_of_reads reads_ (isBlank_of_named named)
  have single' : '\n' ∉ (" @group " : Text) ++ t' := by
    rcases around with rfl | rfl
    · have kept : '\n' ∉ Text.trimRight t := fun member =>
        single ((List.rdropWhile_prefix _ _).mem member)
      simp [kept]
    · simp [single]
  have line : '\n' ∉ (commentSyntax (fileType path)).1 ++ t ++ (commentSyntax (fileType path)).2 := by
    simp [newline_not_mem_commentSyntax, single]
  rw [scan_line language line]
  have meant := Scan.Annotation.read_of_direct single' (direct_around named around)
    (Scan.Scanner.extras { table := packaged, ready } d)
  exact groups_of_classify (r := Scan.Scanner.reader { table := packaged, ready } d)
    (allPlain_of_packagedLanguage? language) comment meant path

/-- **A new comment is read** as the first colon in it cuts it, when the type of its file is not
unread. -/
theorem scan_tagged (ready : Entries (List Pattern))
    (supported : fileType path ∈ supportedFileTypes) (read : fileType path ∉ unreadTypes)
    {name : Text} {description? : Option Text} {tags : List Text}
    (valid : Hierarchy.isValid name = true) (single : '\n' ∉ name)
    (single' : '\n' ∉ description?.getD []) (single'' : ∀ tag ∈ tags, '\n' ∉ tag) :
    (Scan.Scanner.scan { table := packaged, ready }
        (annotationComment name description? tags (fileType path)) path none).1 =
      .ok [Group.placed
        { functionality :=
            (annotationOf (annotationText name (description?.getD []) ++ tagText tags)).name
          filePath := path
          lines := [1]
          description :=
            (annotationOf (annotationText name (description?.getD []) ++ tagText tags)).description }] := by
  have named : Named (annotationText name (description?.getD []) ++ tagText tags) := by
    obtain ⟨t, shape⟩ := exists_annotationText_eq name (description?.getD [])
    rw [shape, List.append_assoc]
    exact named_append valid _
  have line : '\n' ∉ annotationText name (description?.getD []) ++ tagText tags := by
    simp [newline_not_mem_annotationText single single', newline_not_mem_tagText single'']
  rw [annotationComment_eq, scan_commentSyntax supported read named line]

/-- **A new comment without tags is read as it was meant**, when the type of its file is not unread. -/
theorem scan_annotationComment (supported : fileType path ∈ supportedFileTypes)
    (read : fileType path ∉ unreadTypes) {name description : Text}
    (valid : Hierarchy.isValid name = true) (single : '\n' ∉ name) (single' : '\n' ∉ description) :
    (Scan.Scanner.scan { table := packaged, ready }
        (annotationComment name (some description) [] (fileType path)) path none).1 =
      .ok [Group.placed
        { functionality := Text.lower (Text.trim name)
          filePath := path
          lines := [1]
          description := Text.trim description }] := by
  have described : '\n' ∉ (some description).getD [] := single'
  rw [scan_tagged ready supported read valid single described (List.forall_mem_nil _),
    Option.getD_some, tagText_nil, List.append_nil, annotationOf_annotationText valid]

/-- A line without the marker of its language holds no annotation. -/
theorem scan_of_unmarked {line : Text} (unmarked_ : unmarked (fileType path) line = true)
    (single : '\n' ∉ line) :
    (Scan.Scanner.scan { table := packaged, ready } line path none).1 = .ok [] := by
  simp only [unmarked, Option.any_eq_true, Bool.and_eq_true, Option.isNone_iff_eq_none,
    Text.find?_eq_none_iff] at unmarked_
  obtain ⟨d, language, none_, marker, declared, absent⟩ := unmarked_
  rw [scan_line language single]
  exact groups_of_no_comment (allPlain_of_packagedLanguage? language)
    (classify_of_absent declared none_ absent) path

/-- **Which new comments are read again.**  For a supported type, the comment made of any valid name
and any description is read as one group at line 1 with that name in lower case and that
description, exactly if the type is not among the unread ones. -/
theorem scan_annotationComment_iff (supported : fileType path ∈ supportedFileTypes) :
    (∀ name description, Hierarchy.isValid name = true → '\n' ∉ name → '\n' ∉ description →
      (Scan.Scanner.scan { table := packaged, ready }
          (annotationComment name (some description) [] (fileType path)) path none).1 =
        .ok [Group.placed
          { functionality := Text.lower (Text.trim name)
            filePath := path
            lines := [1]
            description := Text.trim description }]) ↔
      fileType path ∉ unreadTypes := by
  constructor
  · intro all unread
    have meant := all "a" [] (by decide) (by decide) (by decide)
    rw [scan_of_unmarked (unmarked_unread _ unread)
      (newline_not_mem_annotationComment (by decide) (by decide) _)] at meant
    cases meant
  · intro read name description valid single single'
    exact scan_annotationComment supported read valid single single'

end Packaged

/-- A description may hold a colon, and white space around the parts is left out. -/
theorem scan_annotationComment_iff_py :
    let path : Text := "src/auth.py"
    fileType path ∈ supportedFileTypes ∧
      (Scan.Scanner.scan { table := packaged }
          (annotationComment "Auth > Login " (some " Checks: input") [] (fileType path)) path
            none).1 =
        .ok [Group.placed
          { functionality := "auth > login"
            filePath := path
            lines := [1]
            description := "Checks: input" }] := by
  intro path
  have supported : fileType path ∈ supportedFileTypes := by decide
  have name : Text.lower (Text.trim ("Auth > Login " : Text)) = "auth > login".toList := by
    decide
  have description : Text.trim (" Checks: input" : Text) = "Checks: input".toList := by decide
  refine ⟨supported, ?_⟩
  rw [(scan_annotationComment_iff supported).mpr (by decide) _ _ (by decide) (by decide)
    (by decide), name, description]

/-- A stub file is of a supported type, but the comment for it is none in its language. -/
theorem scan_annotationComment_pyi :
    let path : Text := "a.pyi"
    fileType path ∈ supportedFileTypes ∧ Hierarchy.isValid "login" = true ∧
      annotationComment "login" (some []) [] (fileType path) = "// @group login".toList ∧
      (Scan.Scanner.scan { table := packaged }
        (annotationComment "login" (some []) [] (fileType path)) path none).1 = .ok [] := by
  intro path
  refine ⟨by decide, by decide, by decide, scan_of_unmarked ?_ ?_⟩
  · decide
  · exact newline_not_mem_annotationComment (by decide) (by decide) _

end CodeAtlas.Language
