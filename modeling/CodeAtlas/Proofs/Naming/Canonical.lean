/-
# Proofs.Naming.Canonical -- canonical words are found word by word, and for good

Nothing that is done to a name looks across white space, so its canonical words are those of its
words, one after the other (`canonicalWords_eq_flatMap`).  What the kind and the amount of white
space are does not matter, and for the normalized name neither does the order of the words
(`canonicalWords_wordwise`).

A canonical word is in lower case, and no word of the two vocabularies occurs in it
(`not_occurs_canonicalWords`): what the vocabularies write is apart from every word they replace, as
one look at their rows shows (`rows`).  So the canonical words of canonical words are these words
again (`canonicalWords_settled`).
-/
import Mathlib.Data.List.Infix
import CodeAtlas.Naming.Canonical
import CodeAtlas.Proofs.Naming.Substitution
import CodeAtlas.Proofs.Text.Case
import CodeAtlas.Proofs.Text.Order

namespace CodeAtlas.Naming

set_option autoImplicit false

open Text (isBlankChar isWordChar lowerImage Lowered Unbroken Wordwise)

variable {v : Vocabulary} {c : Char} {word new x y : Text} {e : Text × Text}

/-! ## The rows of a vocabulary -/

/-- A basic letter in lower case. -/
def isLetter (c : Char) : Bool := Nat.ble 97 c.toNat && Nat.ble c.toNat 122

/-- Letters with single signs between them. -/
def isSpelled (sign : Char) (t : Text) : Bool :=
  t.head?.any isLetter && t.getLast?.any isLetter && t.all fun c => isLetter c || c == sign

/-- A number for a text; texts with different numbers are different. -/
def code (t : Text) : Nat := t.foldl (fun n c => 1114112 * n + c.toNat) 0

/-- The numbers of the words that a vocabulary writes. -/
def writtenCodes (v : Vocabulary) : List Nat :=
  v.flatMap fun e => (Text.splitOn ' ' e.2).map code

/-- None of the texts that the vocabulary writes brings about the word.  A word of letters alone
only has to differ from the words that are written; with a hyphen in it, all the ends of the one
and the other are compared. -/
def isSafe (v : Vocabulary) (word : Text) : Bool :=
  if word.all isLetter then !(writtenCodes v).contains (code word)
  else v.all fun e =>
    (word.tails.all fun rest => rest.isEmpty || !decide (Meets rest e.2)) &&
      e.2.tails.all fun rest => rest.isEmpty || !decide (Meets word rest)

/-- **The rows of the two vocabularies**: how they are spelled, and that no text they write brings
about a word that is not replaced any more. -/
theorem rows :
    (abbreviations.all fun e => isSpelled '-' e.1 && isSpelled ' ' e.2 &&
      isSafe abbreviations e.1 && isSafe wordForms e.1) = true ∧
    (wordForms.all fun e => isSpelled '-' e.1 && isSpelled ' ' e.2 && isSafe wordForms e.1) =
      true := by
  decide +kernel

theorem of_isLetter (letter : isLetter c = true) :
    isWordChar c = true ∧ isBlankChar c = false ∧ lowerImage c = [c] := by
  have basics : ∀ n < 128, isLetter (Char.ofNat n) = true →
      isWordChar (Char.ofNat n) = true ∧ isBlankChar (Char.ofNat n) = false ∧
        lowerImage (Char.ofNat n) = [Char.ofNat n] := by decide
  have basic : c.toNat < 128 := by
    simp only [isLetter, Bool.and_eq_true, Nat.ble_eq] at letter
    omega
  have holds := basics c.toNat basic
  rw [Char.ofNat_toNat] at holds
  exact holds letter

section Spelled

variable {sign : Char} {t : Text}

theorem framed_of_isSpelled (spelled : isSpelled sign t = true) : Framed t := by
  simp only [isSpelled, Bool.and_eq_true] at spelled
  have letters : ∀ {o : Option Char}, o.any isLetter = true → o.any isWordChar = true := by
    intro o
    cases o with
    | none => exact id
    | some c => exact fun letter => (of_isLetter letter).1
  exact ⟨letters spelled.1.1, letters spelled.1.2⟩

theorem of_mem_of_isSpelled (spelled : isSpelled sign t = true) (member : c ∈ t) :
    isLetter c = true ∨ c = sign := by
  simp only [isSpelled, Bool.and_eq_true, List.all_eq_true, Bool.or_eq_true, beq_iff_eq] at spelled
  exact spelled.2 c member

theorem unbroken_of_isSpelled (spelled : isSpelled '-' t = true) : Unbroken t := by
  intro c member
  rcases of_mem_of_isSpelled spelled member with letter | rfl
  · exact (of_isLetter letter).2.1
  · decide

theorem lowered_of_isSpelled (spelled : isSpelled ' ' t = true) : Lowered t := by
  intro c member
  rcases of_mem_of_isSpelled spelled member with letter | rfl
  · exact (of_isLetter letter).2.2
  · decide +kernel

end Spelled

/-- A vocabulary of words and texts of letters. -/
structure Spelled (v : Vocabulary) : Prop where
  words : ∀ e ∈ v, isSpelled '-' e.1 = true
  texts : ∀ e ∈ v, isSpelled ' ' e.2 = true

namespace Spelled

theorem framed (spelled : Spelled v) : v.Framed :=
  ⟨fun e member => framed_of_isSpelled (spelled.words e member),
    fun e member => framed_of_isSpelled (spelled.texts e member)⟩

theorem solid (spelled : Spelled v) : ∀ e ∈ v, e.1 ≠ [] ∧ Unbroken e.1 := fun e member =>
  ⟨(spelled.framed.words e member).ne_nil, unbroken_of_isSpelled (spelled.words e member)⟩

/-- **A safe word is apart from all that is written.** -/
theorem apart (spelled : Spelled v) (framed : Framed word) (safe : isSafe v word = true) :
    ∀ e ∈ v, Apart word e.2 := by
  intro e member
  rw [isSafe] at safe
  split at safe
  · rename_i letters
    rw [List.all_eq_true] at letters
    have simple : Simple word := ⟨framed.ne_nil, fun c inside => (of_isLetter (letters c inside)).1⟩
    refine simple.apart (spelled.framed.texts e member) fun occurs => ?_
    have written := simple.mem_splitOn (fun c inside =>
      (of_mem_of_isSpelled (spelled.texts e member) inside).imp_left fun letter =>
        (of_isLetter letter).1) occurs
    rw [Bool.not_eq_true', ← Bool.not_eq_true, List.contains_iff_mem] at safe
    exact safe (List.mem_flatMap.mpr ⟨e, member, List.mem_map_of_mem written⟩)
  · have checks := List.all_eq_true.mp safe e member
    simp only [Bool.and_eq_true, List.all_eq_true, List.mem_tails, Bool.or_eq_true,
      List.isEmpty_iff, Bool.not_eq_true', decide_eq_false_iff_not] at checks
    exact ⟨fun rest front left => (checks.1 rest ⟨front, left.whole.symm⟩).resolve_left left.some_,
      fun rest front left => (checks.2 rest ⟨front, left.whole.symm⟩).resolve_left left.some_⟩

/-- What has been substituted in a text in lower case is in lower case. -/
theorem lowered_substitute (spelled : Spelled v) {t : Text} (lowered : Lowered t) :
    Lowered (substitute v t) := by
  intro c member
  have pass := substituted (fun e known => (spelled.solid e known).1) none t
  rcases pass.mem_or member with before | ⟨e, known, written⟩
  · exact lowered c before
  · exact lowered_of_isSpelled (spelled.texts e known) c written

end Spelled

theorem spelled_abbreviations : Spelled abbreviations := by
  have checks := rows.1
  simp only [List.all_eq_true, Bool.and_eq_true] at checks
  exact ⟨fun e member => (checks e member).1.1.1, fun e member => (checks e member).1.1.2⟩

theorem spelled_wordForms : Spelled wordForms := by
  have checks := rows.2
  simp only [List.all_eq_true, Bool.and_eq_true] at checks
  exact ⟨fun e member => (checks e member).1.1, fun e member => (checks e member).1.2⟩

/-! ## Word by word -/

/-- The words of a name in lower case with all its words folded. -/
def folded (t : Text) : List Text := Text.words (substitute wordForms (substitute abbreviations t))

theorem wordwise_folded : Wordwise folded :=
  (Text.wordwise_words.comp (keepsBlanks_substitute spelled_wordForms.solid)).comp
    (keepsBlanks_substitute spelled_abbreviations.solid)

/-- White space need not be made single spaces. -/
theorem canonicalWords_eq (name : Text) : canonicalWords name = folded (Text.lower name) := by
  change folded (plain name) = _
  rw [plain, wordwise_folded.join, ← wordwise_folded.eq_flatMap]

theorem wordwise_canonicalWords : Wordwise canonicalWords := by
  have wordwise : Wordwise fun name => folded (Text.lower name) :=
    wordwise_folded.comp Text.keepsBlanks_lower
  rwa [← funext canonicalWords_eq] at wordwise

/-- The canonical words of a name are those of its words. -/
theorem canonicalWords_eq_flatMap (name : Text) :
    canonicalWords name = (Text.words name).flatMap canonicalWords :=
  wordwise_canonicalWords.eq_flatMap name

theorem normalize_congr (same : (canonicalWords x).Perm (canonicalWords y)) :
    normalize x = normalize y := by
  rw [normalize, normalize, Text.sort_congr same]

/-- **Canonical words are found word by word.**  The canonical words of two names with a space
between them are those of the one and those of the other, and names with the same words, in
whatever order and with whatever white space, are normalized to the same name. -/
theorem canonicalWords_wordwise :
    (∀ a b : Text, canonicalWords (a ++ ' ' :: b) = canonicalWords a ++ canonicalWords b) ∧
      ∀ x y : Text, (Text.words x).Perm (Text.words y) → normalize x = normalize y := by
  constructor
  · intro a b
    exact wordwise_canonicalWords.append_cons a ' ' b (by decide)
  · intro x y reordered
    apply normalize_congr
    rw [canonicalWords_eq_flatMap x, canonicalWords_eq_flatMap y]
    exact reordered.flatMap_right canonicalWords

/-- Two names of the same two words, with other white space and in another order. -/
theorem canonicalWords_wordwise_reordered :
    (Text.words "Auth  Config").Perm (Text.words "Config\tAuth ") ∧
      normalize "Auth  Config" = normalize "Config\tAuth " := by
  have words : Text.words "Auth  Config" = ["Auth".toList, "Config".toList] := by decide +kernel
  have words' : Text.words "Config\tAuth " = ["Config".toList, "Auth".toList] := by decide +kernel
  have perm : (Text.words "Auth  Config").Perm (Text.words "Config\tAuth ") := by
    rw [words, words']
    exact .swap _ _ _
  exact ⟨perm, canonicalWords_wordwise.2 _ _ perm⟩

/-! ## Once and for all -/

/-- No word of the two vocabularies occurs in a canonical word. -/
theorem not_occurs_canonicalWords (canonical : word ∈ canonicalWords x) :
    (∀ e ∈ abbreviations, ¬Occurs none e.1 word) ∧ ∀ e ∈ wordForms, ¬Occurs none e.1 word := by
  have first := rows.1
  have second := rows.2
  simp only [List.all_eq_true, Bool.and_eq_true] at first second
  have framed := spelled_abbreviations.framed
  have framed' := spelled_wordForms.framed
  have pass := substituted (fun e member => (framed.words e member).ne_nil) none (Text.lower x)
  have pass' := substituted (fun e member => (framed'.words e member).ne_nil) none
    (substitute abbreviations (Text.lower x))
  rw [canonicalWords_eq] at canonical
  obtain ⟨front, back, stands⟩ := Text.exists_standsIn canonical
  constructor
  · intro e member occurs
    obtain ⟨⟨-, safe⟩, safe'⟩ := first e member
    have apart := spelled_abbreviations.apart (framed.words e member) safe
    have apart' := spelled_wordForms.apart (framed.words e member) safe'
    -- The first pass leaves none of its words, and the second brings none about.
    have gone := pass.not_occurs framed (framed.words e member) apart (.inl ⟨e, member, rfl⟩)
    have still := pass'.not_occurs framed' (framed.words e member) apart' (.inr gone)
    exact still (occurs_of_standsIn stands occurs)
  · intro e member occurs
    have apart := spelled_wordForms.apart (framed'.words e member) (second e member).2
    have gone := pass'.not_occurs framed' (framed'.words e member) apart (.inl ⟨e, member, rfl⟩)
    exact gone (occurs_of_standsIn stands occurs)

theorem lowered_canonicalWords (canonical : word ∈ canonicalWords x) : Lowered word := by
  rw [canonicalWords_eq] at canonical
  obtain ⟨front, back, stands⟩ := Text.exists_standsIn canonical
  have lowered := spelled_wordForms.lowered_substitute
    (spelled_abbreviations.lowered_substitute (Text.lowered_lower x))
  intro c member
  refine lowered c ?_
  rw [stands.whole]
  exact List.mem_append_left _ (List.mem_append_right _ member)

/-- A canonical word is its own canonical word. -/
theorem canonicalWords_of_mem (canonical : word ∈ canonicalWords x) :
    canonicalWords word = [word] := by
  obtain ⟨absent, absent'⟩ := not_occurs_canonicalWords canonical
  have stays : substitute abbreviations word = word :=
    substitute_of_not_occurs (fun e member => (spelled_abbreviations.solid e member).1) absent
  have stays' : substitute wordForms word = word :=
    substitute_of_not_occurs (fun e member => (spelled_wordForms.solid e member).1) absent'
  obtain ⟨some_, unbroken⟩ := Text.of_mem_words canonical
  rw [canonicalWords_eq, Text.lower_of_lowered (lowered_canonicalWords canonical), folded, stays,
    stays', Text.words_of_unbroken some_ unbroken]

theorem canonicalWords_join {ws : List Text} (canonical : ∀ w ∈ ws, ∃ x, w ∈ canonicalWords x) :
    canonicalWords (Text.join " " ws) = ws := by
  have each : ∀ w ∈ ws, canonicalWords w = [w] := fun w member =>
    (canonical w member).elim fun _ => canonicalWords_of_mem
  rw [wordwise_canonicalWords.join, List.flatMap_congr each, List.flatMap_singleton']

/-- **Canonical words are found for good.**  The canonical words of canonical words, in the order of
the name or in ascending order, are these words again. -/
theorem canonicalWords_settled (x : Text) :
    canonicalWords (Text.join " " (canonicalWords x)) = canonicalWords x ∧
      normalize (normalize x) = normalize x := by
  constructor
  · exact canonicalWords_join fun w member => ⟨x, member⟩
  · have sorted : canonicalWords (normalize x) = Text.sort (canonicalWords x) :=
      canonicalWords_join fun w member => ⟨x, Text.mem_sort.mp member⟩
    apply normalize_congr
    rw [sorted]
    exact Text.sort_perm _

end CodeAtlas.Naming
