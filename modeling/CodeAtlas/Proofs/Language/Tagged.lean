/-
# Proofs.Language.Tagged -- new comments with tags

A new comment may have tags behind the name and the description.  Nothing reads tags: what stands in
the comment is cut at its first colon, so everything behind the colon belongs to the description and
everything in front of it to the name.

* Behind a description the tags become a part of it, and the name is left alone
  (`annotationOf_described`).
* Without a description there is no colon in front of the tags.  They become a part of the name, which
  then has a `#` in it, as no valid name has (`hash_mem_annotationOf`).

So tags leave the name alone exactly if there are none or there is a description
(`annotationOf_tagged_iff`, `scan_tagged_iff`).
-/
import CodeAtlas.Proofs.Language.Comment
import CodeAtlas.Proofs.Text.Case

namespace CodeAtlas.Language

set_option autoImplicit false

section Tags

variable {name description : Text} {tags : List Text}

/-- Behind a description, tags belong to it. -/
theorem annotationOf_described (valid : Hierarchy.isValid name = true) (some_ : description ≠ [])
    (tags : List Text) :
    annotationOf (annotationText name description ++ tagText tags) =
      { name := Text.lower (Text.trim name)
        description := Text.trim (description ++ tagText tags) } := by
  have shape : annotationText name description ++ tagText tags =
      annotationText name (description ++ tagText tags) := by
    simp [annotationText, some_]
  rw [shape, annotationOf_annotationText valid]

/-- Without a description, the first tag brings a `#` into the name. -/
theorem hash_mem_annotationOf (valid : Hierarchy.isValid name = true) (some_ : tags ≠ []) :
    '#' ∈ (annotationOf (annotationText name [] ++ tagText tags)).name := by
  have shape : annotationText name [] ++ tagText tags =
      name ++ (" #".toList ++ Text.join " #" tags) := by
    simp [annotationText, tagText, some_]
  have tagged : '#' ∈ (Text.cut ':' (annotationText name [] ++ tagText tags)).1 := by
    rw [shape, Text.cut_append_left (colon_not_mem_of_isValid valid),
      Text.cut_append_left (by decide : ':' ∉ " #".toList)]
    simp
  exact Text.mem_lower (by decide) (by decide) (Text.mem_trim (by decide) tagged)

theorem hash_not_mem_lower (valid : Hierarchy.isValid name = true) :
    '#' ∉ Text.lower (Text.trim name) := by
  intro member
  have inside := Text.mem_of_mem_trim (Text.mem_of_mem_lower (by decide) (by decide) member)
  rcases Hierarchy.of_mem_of_isValid valid inside with same | letter
  · exact absurd same (by decide)
  · exact absurd letter (by decide)

/-- **Where tags leave the name alone.** -/
theorem annotationOf_tagged_iff (valid : Hierarchy.isValid name = true) :
    (annotationOf (annotationText name description ++ tagText tags)).name =
        Text.lower (Text.trim name) ↔
      tags = [] ∨ description ≠ [] := by
  constructor
  · intro same
    by_contra! bare
    obtain ⟨some_, rfl⟩ := bare
    exact hash_not_mem_lower valid (same ▸ hash_mem_annotationOf valid some_)
  · rintro (rfl | some_)
    · rw [tagText_nil, List.append_nil, annotationOf_annotationText valid]
    · rw [annotationOf_described valid some_]

end Tags

/-! ## Scans -/

section Scans

variable (ready : Entries (List Pattern)) {path : Text}

theorem supported_script (script : fileType path = "js") :
    fileType path ∈ supportedFileTypes ∧ fileType path ∉ unreadTypes := by
  rw [script]
  decide

/-- **When tags leave the group alone.**  A new comment is read as one group, with tags and without,
and the two have the same name exactly if there are no tags or there is a description in front of
them. -/
theorem scan_tagged_iff (script : fileType path = "js") {name : Text} {description? : Option Text}
    {tags : List Text} (valid : Hierarchy.isValid name = true) (single : '\n' ∉ name)
    (single' : ∀ description ∈ description?, '\n' ∉ description)
    (single'' : ∀ tag ∈ tags, '\n' ∉ tag) :
    ∃ g g' : Group,
      (Scan.Scanner.scan { table := packaged, ready }
          (annotationComment name description? tags "js") path none).1 = .ok [g] ∧
        (Scan.Scanner.scan { table := packaged, ready }
          (annotationComment name description? [] "js") path none).1 = .ok [g'] ∧
        (g.functionality = g'.functionality ↔ tags = [] ∨ description?.getD [] ≠ []) := by
  obtain ⟨supported, read⟩ := supported_script script
  have described : '\n' ∉ description?.getD [] := by
    cases description? with
    | none => simp
    | some description => exact single' description rfl
  have tagged := scan_tagged ready supported read valid single described single''
  have tagless := scan_tagged ready supported read valid single described (List.forall_mem_nil _)
  rw [script] at tagged tagless
  refine ⟨_, _, tagged, tagless, ?_⟩
  have bare : (annotationOf (annotationText name (description?.getD []) ++ tagText [])).name =
      Text.lower (Text.trim name) :=
    (annotationOf_tagged_iff valid).mpr (.inl rfl)
  change (annotationOf _).name = (annotationOf _).name ↔ _
  rw [bare, annotationOf_tagged_iff valid]

/-- Two tags behind a description that has a colon itself. -/
theorem scan_tagged_iff_described :
    fileType "src/auth.js" = "js".toList ∧ ∃ g g' : Group,
      (Scan.Scanner.scan { table := packaged }
          (annotationComment "Auth > Login" (some "Checks: input") ["ui", "safe"] "js") "src/auth.js"
            none).1 = .ok [g] ∧
        (Scan.Scanner.scan { table := packaged }
          (annotationComment "Auth > Login" (some "Checks: input") [] "js") "src/auth.js"
            none).1 = .ok [g'] ∧
        g.functionality = g'.functionality := by
  have script : fileType "src/auth.js" = "js".toList := by decide
  obtain ⟨g, g', tagged, tagless, same⟩ := scan_tagged_iff [] script
    (by decide : Hierarchy.isValid "Auth > Login" = true) (by decide)
    (by decide : ∀ description ∈ some "Checks: input".toList, '\n' ∉ description)
    (by decide : ∀ tag ∈ ["ui".toList, "safe".toList], '\n' ∉ tag)
  exact ⟨script, g, g', tagged, tagless, same.mpr (.inr (by decide))⟩

/-- Without a description, the tag is read as a part of the name. -/
theorem scan_tagged_bare :
    Hierarchy.isValid "Payments" = true ∧
      annotationComment "Payments" none ["billing"] "js" = "// @group Payments #billing".toList ∧
      ∃ g g' : Group,
        (Scan.Scanner.scan { table := packaged } (annotationComment "Payments" none ["billing"] "js")
          "a.js" none).1 = .ok [g] ∧
        (Scan.Scanner.scan { table := packaged } (annotationComment "Payments" none [] "js")
          "a.js" none).1 = .ok [g'] ∧
        g.functionality = "payments #billing".toList ∧ g'.functionality = "payments".toList := by
  have script : fileType "a.js" = "js".toList := by decide
  obtain ⟨supported, read⟩ := supported_script script
  have valid : Hierarchy.isValid "Payments" = true := by decide
  have tagged := scan_tagged [] supported read valid (by decide) (by decide : '\n' ∉ none.getD [])
    (by decide : ∀ tag ∈ ["billing".toList], '\n' ∉ tag)
  have tagless := scan_tagged [] supported read valid (by decide) (by decide : '\n' ∉ none.getD [])
    (List.forall_mem_nil _)
  rw [script] at tagged tagless
  exact ⟨valid, by decide, _, _, tagged, tagless, by decide, by decide⟩

end Scans

end CodeAtlas.Language
