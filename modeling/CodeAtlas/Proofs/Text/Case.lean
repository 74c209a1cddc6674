/-
# Proofs.Text.Case -- what lower-casing keeps, and which characters ignoring case confuses

Lower-casing never makes a character vanish, so a text that is not empty stays so
(`lower_ne_nil`).  It leaves white space where it is and never looks across it
(`keepsBlanks_lower`), and what it gives is in lower case (`lowered_lower`), which a second
lower-casing leaves alone (`lower_of_lowered`).  No basic sign comes in that was not there
(`mem_of_mem_lower`), and none goes (`mem_lower`).

Beyond the basic alphabet only `İ` and the Kelvin sign become basic characters in lower case, an `i`
and a `k` (`simpleLower_of_not_basic`).  Any other basic character that has no siblings is
`Solitary`: when case is ignored, it stands for itself and its basic capital only
(`Solitary.sameIgnoringCase_eq`).
-/
import CodeAtlas.Proofs.Text.Words
import CodeAtlas.Text.Case

namespace CodeAtlas.Text

set_option autoImplicit false

/-! ## Lower case -/

theorem caseImage_ne_nil {runs : List ShiftRun} {expansions : List (Nat × List Nat)}
    (solid : ∀ e ∈ expansions, e.2 ≠ []) (c : Char) : caseImage runs expansions c ≠ [] := by
  rw [caseImage]
  split
  · exact List.cons_ne_nil _ _
  · split
    · rename_i ns known
      obtain ⟨before, after, table, -⟩ := List.lookup_eq_some_iff.mp known
      simpa using solid (c.toNat, ns) (by simp [table])
    · exact List.cons_ne_nil _ _

/-- **What becomes of a character**: the character itself, what a run takes it to, or a part of what
it is expanded to. -/
theorem of_mem_caseImage {runs : List ShiftRun} {expansions : List (Nat × List Nat)} {c d : Char}
    (member : d ∈ caseImage runs expansions c) :
    d = c ∨ (∃ r ∈ runs, ∃ m, r.image? c.toNat = some m ∧ Char.ofNat m = d) ∨
      ∃ e ∈ expansions, ∃ n ∈ e.2, Char.ofNat n = d := by
  rw [caseImage] at member
  split at member
  · rename_i m found
    obtain ⟨r, row, image⟩ := List.exists_of_findSome?_eq_some found
    exact .inr (.inl ⟨r, row, m, image, (List.mem_singleton.mp member).symm⟩)
  · split at member
    · rename_i ns known
      obtain ⟨before, after, table, -⟩ := List.lookup_eq_some_iff.mp known
      obtain ⟨n, inside, rfl⟩ := List.mem_map.mp member
      exact .inr (.inr ⟨(c.toNat, ns), by simp [table], n, inside, rfl⟩)
    · exact .inl (List.mem_singleton.mp member)

/-- What a run takes a number to is within its images. -/
theorem ShiftRun.of_image?_eq_some {r : ShiftRun} {n m : Nat} (image : r.image? n = some m) :
    n ≤ r.2.1 ∧ r.2.2.2 ≤ m ∧ m ≤ r.2.2.2 + (r.2.1 - r.1) := by
  unfold ShiftRun.image? at image
  split at image
  · rename_i inside
    simp only [Bool.and_eq_true, decide_eq_true_eq] at inside
    rw [Option.some.injEq] at image
    omega
  · cases image

theorem lowerImage_ne_nil (c : Char) : lowerImage c ≠ [] := by
  rw [lowerImage]
  split
  · exact List.cons_ne_nil _ _
  · exact caseImage_ne_nil (by decide) c

/-- Lower-casing leaves something of every text that is not empty. -/
theorem lower_ne_nil {t : Text} (some_ : t ≠ []) : lower t ≠ [] := by
  cases t with
  | nil => exact absurd rfl some_
  | cons c rest =>
      rw [lower, lowerFrom]
      split
      · simp
      · simp [lowerImage_ne_nil]

/-! ## White space -/

theorem lookup_lowerExpansions {n : Nat} (other : n ≠ 304) : lowerExpansions.lookup n = none := by
  rw [lowerExpansions, List.lookup_cons, beq_eq_false_iff_ne.mpr other]
  rfl

/-- White space has no case, and is not passed over in search of a character that has. -/
theorem caseless_of_isBlankChar {c : Char} (blank : isBlankChar c = true) :
    isCased c = false ∧ isCaseIgnorable c = false :=
  ⟨inRanges_of_isBlankChar blank (by decide +kernel),
    inRanges_of_isBlankChar blank (by decide +kernel)⟩

theorem lowerImage_of_isBlankChar {c : Char} (blank : isBlankChar c = true) :
    lowerImage c = [c] := by
  have basics : ∀ n < 128, isBlankChar (Char.ofNat n) = true →
      (Char.ofNat n).toLower = Char.ofNat n := by decide
  have rows : ∀ b ∈ whiteRanges, ∀ r ∈ lowerRuns, r.2.1 < b.1 ∨ b.2 < r.1 := by decide +kernel
  have dotted : inRanges [(304, 304)] c.toNat = false :=
    inRanges_of_isBlankChar blank (by decide)
  rw [lowerImage]
  split
  · rename_i basic
    have same := basics c.toNat basic
    rw [Char.ofNat_toNat] at same
    rw [same blank]
  · rw [isBlankChar_eq, inRanges, List.any_eq_true] at blank
    obtain ⟨b, white, inside⟩ := blank
    have unmoved : lowerRuns.findSome? (·.image? c.toNat) = none := by
      rw [List.findSome?_eq_none_iff]
      intro r row
      have := rows b white r row
      simp only [Bool.and_eq_true, decide_eq_true_eq] at inside
      rw [ShiftRun.image?, if_neg]
      simp only [Bool.and_eq_true, decide_eq_true_eq]
      omega
    have other : c.toNat ≠ 304 := by
      rintro same
      simp [inRanges, same] at dotted
    rw [caseImage, unmoved, lookup_lowerExpansions other]

theorem startsCased_append_cons {c : Char} (blank : isBlankChar c = true) (s t : Text) :
    startsCased (s ++ c :: t) = startsCased s := by
  obtain ⟨uncased, stops⟩ := caseless_of_isBlankChar blank
  rw [startsCased, startsCased, List.dropWhile_append]
  split
  · rename_i passed
    rw [List.isEmpty_iff.mp passed, List.dropWhile_cons_of_neg (by simp [stops])]
    simp [uncased]
  · rename_i found
    rw [List.isEmpty_iff] at found
    rw [List.head?_append_of_ne_nil _ found]

/-- **Lower-casing leaves white space where it is**, and starts anew behind it. -/
theorem keepsBlanks_lower : KeepsBlanks lower where
  nil := rfl
  append_cons := fun s c t blank => by
    obtain ⟨uncased, stops⟩ := caseless_of_isBlankChar blank
    have other : (c == 'Σ') = false := by
      rw [beq_eq_false_iff_ne]
      rintro rfl
      exact absurd blank (by decide)
    suffices all : ∀ before, lowerFrom before (s ++ c :: t) =
        lowerFrom before s ++ c :: lowerFrom false t from all false
    induction s with
    | nil => simp [lowerFrom, other, stops, uncased, lowerImage_of_isBlankChar blank]
    | cons d s ih =>
        intro before
        simp only [List.cons_append, lowerFrom, startsCased_append_cons blank, ih,
          List.append_assoc]

/-! ## Lower-casing twice -/

/-- The images of the first run are no members of the second. -/
def ShiftRun.misses (r r' : ShiftRun) : Bool :=
  Nat.blt (r.2.2.2 + (r.2.1 - r.1)) r'.1 || Nat.blt r'.2.1 r.2.2.2 ||
    (r'.2.2.1 == 2 && (r.2.2.1 == 2 || r.1 == r.2.1) && (r.2.2.2 + r'.1) % 2 == 1)

theorem ShiftRun.image?_of_misses {r r' : ShiftRun} (apart : r.misses r' = true) {n m : Nat}
    (image : r.image? n = some m) : r'.image? m = none := by
  unfold ShiftRun.image? at image ⊢
  split at image
  · rename_i inside
    simp only [Bool.and_eq_true, decide_eq_true_eq, beq_iff_eq] at inside
    simp only [ShiftRun.misses, Bool.or_eq_true, Bool.and_eq_true, Nat.blt_eq, beq_iff_eq] at apart
    rw [Option.some.injEq] at image
    rw [if_neg]
    simp only [Bool.and_eq_true, decide_eq_true_eq, beq_iff_eq]
    rintro ⟨inside', step⟩
    rcases apart with (below | above) | ⟨⟨step', single⟩, odd⟩
    · omega
    · omega
    · rw [step'] at step
      rcases single with even | same
      · rw [even] at inside
        omega
      · omega
  · cases image

theorem toNat_charOfNat {n : Nat} (valid : n.isValidChar) : (Char.ofNat n).toNat = n := by
  rw [Char.ofNat, dif_pos valid]
  rfl

/-- A run takes a character beyond the basic alphabet to another such one, the Kelvin sign apart. -/
theorem image_of_mem_lowerRuns {r : ShiftRun} (member : r ∈ lowerRuns) {n m : Nat}
    (beyond : 128 ≤ n) (image : r.image? n = some m) : m.isValidChar ∧ (m = 107 ∨ 128 ≤ m) := by
  have rows : ∀ r ∈ lowerRuns, r.2.1 < 128 ∨ r = (8490, 8490, 1, 107) ∨
      128 ≤ r.2.2.2 ∧ (r.2.2.2 + (r.2.1 - r.1) < 0xD800 ∨
        0xDFFF < r.2.2.2 ∧ r.2.2.2 + (r.2.1 - r.1) < 0x110000) := by decide +kernel
  obtain ⟨within, above, below⟩ := ShiftRun.of_image?_eq_some image
  rw [Nat.isValidChar]
  rcases rows r member with low | rfl | high
  · omega
  · simp only at above below
    omega
  · omega

/-- The image of a character in a run is in no run. -/
theorem findSome?_of_mem_lowerRuns {r : ShiftRun} (member : r ∈ lowerRuns) {n m : Nat}
    (image : r.image? n = some m) : lowerRuns.findSome? (·.image? m) = none := by
  have rows : (lowerRuns.all fun r => lowerRuns.all fun r' => r.misses r') = true := by
    decide +kernel
  rw [List.findSome?_eq_none_iff]
  intro r' member'
  exact ShiftRun.image?_of_misses
    (List.all_eq_true.mp (List.all_eq_true.mp rows r member) r' member') image

/-- Every character is its own lower case. -/
def Lowered (t : Text) : Prop := ∀ c ∈ t, lowerImage c = [c]

theorem lowerImage_of_mem_lowerImage {c d : Char} (member : d ∈ lowerImage c) :
    lowerImage d = [d] := by
  have basics : ∀ n < 128, lowerImage (Char.ofNat n).toLower = [(Char.ofNat n).toLower] := by decide
  have few : lowerImage 'k' = ['k'] ∧ ∀ e ∈ lowerExpansions, ∀ n ∈ e.2,
    lowerImage (Char.ofNat n) = [Char.ofNat n] := by decide
  have rows : ∀ r ∈ lowerRuns, r.2.2.2 + (r.2.1 - r.1) < 304 ∨ 304 < r.2.2.2 := by decide +kernel
  by_cases basic : c.toNat < 128
  · rw [lowerImage, if_pos basic, List.mem_singleton] at member
    have same := basics c.toNat basic
    rwa [Char.ofNat_toNat, ← member] at same
  · rw [lowerImage, if_neg basic, caseImage] at member
    split at member
    · rename_i m found
      obtain ⟨r, row, image⟩ := List.exists_of_findSome?_eq_some found
      obtain ⟨valid, value⟩ := image_of_mem_lowerRuns row (by omega) image
      have same := toNat_charOfNat valid
      rw [List.mem_singleton] at member
      subst member
      rcases value with kelvin | beyond
      · rw [kelvin]
        exact few.1
      · have other : m ≠ 304 := by
          have := rows r row
          have := ShiftRun.of_image?_eq_some image
          omega
        rw [lowerImage, if_neg (by omega), caseImage, same,
          findSome?_of_mem_lowerRuns row image, lookup_lowerExpansions other]
    · rename_i unmoved
      split at member
      · rename_i ns known
        obtain ⟨before, after, table, -⟩ := List.lookup_eq_some_iff.mp known
        obtain ⟨n, inside, rfl⟩ := List.mem_map.mp member
        exact few.2 (c.toNat, ns) (by simp [table]) n inside
      · rename_i unknown
        obtain rfl := List.mem_singleton.mp member
        rw [lowerImage, if_neg basic, caseImage, unmoved, unknown]

/-- **What lower-casing gives is in lower case.** -/
theorem lowered_lower (t : Text) : Lowered (lower t) := by
  suffices all : ∀ before, Lowered (lowerFrom before t) from all false
  induction t with
  | nil => exact fun _ _ member => absurd member List.not_mem_nil
  | cons c t ih =>
      intro before d member
      rw [lowerFrom, List.mem_append] at member
      rcases member with here | later
      · split at here
        · rw [List.mem_singleton] at here
          rw [here]
          split <;> decide
        · exact lowerImage_of_mem_lowerImage here
      · exact ih _ d later

/-- **A text in lower case stays as it is.** -/
theorem lower_of_lowered {t : Text} (lowered : Lowered t) : lower t = t := by
  suffices all : ∀ before, lowerFrom before t = t from all false
  induction t with
  | nil => exact fun _ => rfl
  | cons c t ih =>
      intro before
      have here := lowered c List.mem_cons_self
      have other : (c == 'Σ') = false := by
        rw [beq_eq_false_iff_ne]
        rintro rfl
        exact absurd here (by decide)
      rw [lowerFrom, other, if_neg (by simp), here, ih fun d later =>
        lowered d (List.mem_cons_of_mem c later)]
      rfl

/-! ## Characters that are confused with no others -/

/-- Only two characters beyond the basic alphabet have a lower case that begins inside it. -/
theorem simpleLower_of_not_basic {c : Char} (beyond : 128 ≤ c.toNat) :
    (simpleLower c).toNat = 105 ∨ (simpleLower c).toNat = 107 ∨ 128 ≤ (simpleLower c).toNat := by
  rw [simpleLower, lowerImage, if_neg (by omega), caseImage]
  split
  · rename_i m found
    obtain ⟨r, member, image⟩ := List.exists_of_findSome?_eq_some found
    obtain ⟨valid, value⟩ := image_of_mem_lowerRuns member beyond image
    have same := toNat_charOfNat valid
    rw [List.headD_cons, same]
    omega
  · split
    · rename_i ns known
      obtain ⟨before, after, table, -⟩ := List.lookup_eq_some_iff.mp known
      have heads : ∀ e ∈ lowerExpansions, (e.2.map Char.ofNat).head? = some 'i' := by decide
      rw [List.headD_eq_head?_getD, heads (c.toNat, ns) (by simp [table])]
      exact .inl rfl
    · rw [List.headD_cons]
      omega

/-- A basic lower-case character that is confused with no character of another script. -/
structure Solitary (c : Char) : Prop where
  basic : c.toNat < 128
  other : c ≠ 'i' ∧ c ≠ 'k'
  alone : caseClass c = [c.toNat]

instance (c : Char) : Decidable (Solitary c) :=
  decidable_of_iff (c.toNat < 128 ∧ (c ≠ 'i' ∧ c ≠ 'k') ∧ caseClass c = [c.toNat])
    ⟨fun ⟨basic, other, alone⟩ => ⟨basic, other, alone⟩,
      fun ⟨basic, other, alone⟩ => ⟨basic, other, alone⟩⟩

/-- A basic character is its own lower case, or its basic capital is. -/
theorem simpleLower_of_basic {d : Char} (basic : d.toNat < 128) : simpleLower d = d.toLower := by
  rw [simpleLower, lowerImage, if_pos basic, List.headD_cons]

theorem toLower_of_not_basic {d : Char} (beyond : 128 ≤ d.toNat) : d.toLower = d := by
  refine dif_neg ?_
  rintro ⟨-, capital⟩
  have := UInt32.le_iff_toNat_le.mp capital
  change d.toNat ≤ 90 at this
  omega

/-- Only a letter is the basic lower case of another character. -/
theorem toLower_eq_iff {c d : Char} (plain : c.isAlpha = false) : d.toLower = c ↔ d = c := by
  have basics : ∀ n < 128, (Char.ofNat n).toLower = Char.ofNat n ∨
      (Char.ofNat n).isAlpha = true ∧ (Char.ofNat n).toLower.isAlpha = true := by decide
  have letters : d.toLower = d ∨ d.isAlpha = true ∧ d.toLower.isAlpha = true := by
    by_cases basic : d.toNat < 128
    · simpa using basics d.toNat basic
    · exact .inl (toLower_of_not_basic (by omega))
  rcases letters with same | ⟨letter, letter'⟩
  · rw [same]
  · constructor
    · rintro rfl
      rw [letter'] at plain
      cases plain
    · rintro rfl
      rw [letter] at plain
      cases plain

theorem mem_of_mem_lowerImage {c d : Char} (basic : d.toNat < 128) (plain : d.isAlpha = false)
    (member : d ∈ lowerImage c) : d = c := by
  have letters : ∀ e ∈ lowerExpansions, ∀ n ∈ e.2, (Char.ofNat n).toNat < 128 →
      (Char.ofNat n).isAlpha = true := by decide
  rw [lowerImage] at member
  split at member
  · exact ((toLower_eq_iff plain).mp (List.mem_singleton.mp member).symm).symm
  · rename_i beyond
    rcases of_mem_caseImage member with same | ⟨r, row, m, image, rfl⟩ | ⟨e, known, n, inside, rfl⟩
    · exact same
    · obtain ⟨valid, value⟩ := image_of_mem_lowerRuns row (by omega) image
      rw [toNat_charOfNat valid] at basic
      obtain rfl : m = 107 := by omega
      exact absurd plain (by decide)
    · rw [letters e known n inside basic] at plain
      cases plain

/-- **Lower-casing keeps a character that is its own lower case**, in whatever context it stands. -/
theorem mem_lower {c : Char} {t : Text} (same : lowerImage c = [c]) (other : c ≠ 'Σ')
    (member : c ∈ t) : c ∈ lower t := by
  suffices all : ∀ before, c ∈ lowerFrom before t from all false
  induction t with
  | nil => cases member
  | cons d t ih =>
      intro before
      rw [lowerFrom, List.mem_append]
      rcases List.mem_cons.mp member with rfl | later
      · refine .inl ?_
        rw [if_neg (by simpa using other), same]
        exact List.mem_singleton_self c
      · exact .inr (ih later _)

/-- **Lower-casing brings no basic sign in.** -/
theorem mem_of_mem_lower {d : Char} {t : Text} (basic : d.toNat < 128) (plain : d.isAlpha = false)
    (member : d ∈ lower t) : d ∈ t := by
  suffices all : ∀ before, d ∈ lowerFrom before t → d ∈ t from all false member
  clear member
  induction t with
  | nil => exact fun _ member => member
  | cons c t ih =>
      intro before member
      rw [lowerFrom, List.mem_append] at member
      rcases member with here | later
      · split at here
        · rw [List.mem_singleton] at here
          split at here
          · exact absurd basic (here ▸ by decide)
          · exact absurd basic (here ▸ by decide)
        · exact List.mem_cons.mpr (.inl (mem_of_mem_lowerImage basic plain here))
      · exact List.mem_cons_of_mem c (ih _ later)

/-- **The simple lower case of a character is a solitary one** only for that one and its basic
capital. -/
theorem Solitary.simpleLower_iff {c : Char} (solitary : Solitary c) {d : Char} :
    simpleLower d = c ↔ d.toLower = c := by
  by_cases basic : d.toNat < 128
  · rw [simpleLower_of_basic basic]
  · have beyond : 128 ≤ d.toNat := by omega
    have inside := solitary.basic
    rw [toLower_of_not_basic beyond]
    constructor
    · rintro rfl
      rcases simpleLower_of_not_basic beyond with i | k | far
      · exact absurd (Char.toNat_inj.mp i) solitary.other.1
      · exact absurd (Char.toNat_inj.mp k) solitary.other.2
      · omega
    · rintro rfl
      omega

/-- **A solitary character stands for itself and its basic capital**, and for nothing else. -/
theorem Solitary.sameIgnoringCase_eq {c : Char} (solitary : Solitary c) (d : Char) :
    (d == c || sameIgnoringCase c d) = (d.toLower == c) := by
  have itself : c.toLower = c :=
    solitary.simpleLower_iff.mp (Char.toNat_inj.mp (List.cons.inj solitary.alone).1)
  rw [sameIgnoringCase, solitary.alone, List.contains_cons, Bool.eq_iff_iff]
  simp only [Bool.or_eq_true, beq_iff_eq, Char.toNat_inj, List.contains_nil, Bool.or_false,
    solitary.simpleLower_iff]
  constructor
  · rintro (rfl | rfl | same)
    · exact itself
    · exact itself
    · exact same
  · exact fun same => .inr (.inr same)

/-- **A solitary sign in front of the letters is a variant of nothing but itself.** -/
theorem Solitary.mem_caseVariants_iff {c : Char} (solitary : Solitary c) (early : c.toNat < 65)
    {d : Char} : c.toNat ∈ caseVariants d ↔ d = c := by
  have rows : ∀ r ∈ lowerRuns, 65 ≤ r.1 := by decide +kernel
  have siblings : ∀ e ∈ caseSiblings, ∀ n ∈ e.2, 65 ≤ n := by decide
  have signs : ∀ n < 65, (Char.ofNat n).isAlpha = false := by decide
  have plain : c.isAlpha = false := by simpa using signs c.toNat early
  constructor
  · intro member
    simp only [caseVariants, List.mem_append, List.mem_cons, List.mem_flatMap,
      List.mem_filterMap] at member
    rcases member with ((same | wanted) | ⟨r, row, n, -, source⟩) | dotted
    · exact (Char.toNat_inj.mp same).symm
    · rw [caseClass, List.mem_cons] at wanted
      rcases wanted with same | sibling
      · exact (toLower_eq_iff plain).mp (solitary.simpleLower_iff.mp (Char.toNat_inj.mp same).symm)
      · cases known : caseSiblings.lookup (simpleLower d).toNat with
        | none => simp [known] at sibling
        | some ns =>
            obtain ⟨before, after, table, -⟩ := List.lookup_eq_some_iff.mp known
            rw [known, Option.getD_some] at sibling
            have := siblings ((simpleLower d).toNat, ns) (by simp [table]) _ sibling
            omega
    · have := rows r row
      unfold ShiftRun.source? at source
      split at source
      · rw [Option.some.injEq] at source
        omega
      · cases source
    · split at dotted
      · rw [List.mem_singleton] at dotted
        omega
      · cases dotted
  · rintro rfl
    simp [caseVariants]

end CodeAtlas.Text
