/-
# Proofs.Text.Words -- a text and the words in it

A function that makes a list of a text is *wordwise* if white space in the text only keeps apart
what it makes of the parts (`Wordwise`).  Such a function is determined by what it makes of single
words: its list for a text is made of its lists for the words (`Wordwise.eq_flatMap`), so neither
the kind nor the amount of white space matters, and words that are joined by spaces are taken one
by one (`Wordwise.join`).

`words` itself is wordwise (`wordwise_words`), and stays so behind a function that leaves white
space where it is (`KeepsBlanks`).

White space is a handful of ranges, so that it is in none of the ranges of a table takes one look at
each of them (`inRanges_of_isBlankChar`).
-/
import CodeAtlas.Proofs.Text.Pieces

namespace CodeAtlas.Text

set_option autoImplicit false

variable {α : Type} {c : Char} {s t w : Text}

/-! ## White space among other characters -/

/-- All white space. -/
def whiteRanges : List (Nat × Nat) := (9, 13) :: (28, 32) :: blankRanges

theorem isBlankChar_eq (c : Char) : isBlankChar c = inRanges whiteRanges c.toNat := by
  simp [isBlankChar, inRanges, whiteRanges, Bool.or_assoc]

/-- White space is in none of the ranges that lie apart from it. -/
theorem inRanges_of_isBlankChar (blank : isBlankChar c = true) {ranges : List (Nat × Nat)}
    (apart : ∀ b ∈ whiteRanges, ∀ r ∈ ranges, r.2 < b.1 ∨ b.2 < r.1) :
    inRanges ranges c.toNat = false := by
  rw [isBlankChar_eq, inRanges, List.any_eq_true] at blank
  obtain ⟨b, white, inside⟩ := blank
  rw [inRanges, List.any_eq_false]
  intro r row inside'
  simp only [Bool.and_eq_true, decide_eq_true_eq] at inside inside'
  have := apart b white r row
  omega

/-! ## Parts without white space -/

/-- No white space anywhere. -/
def Unbroken (t : Text) : Prop := ∀ c ∈ t, isBlankChar c = false

theorem unbroken_nil : Unbroken [] := fun _ member => absurd member List.not_mem_nil

/-- A text is unbroken, or an unbroken part with white space and another text behind it. -/
theorem induction_on_blanks {P : Text → Prop} (unbroken : ∀ t, Unbroken t → P t)
    (broken : ∀ s c t, Unbroken s → isBlankChar c = true → P t → P (s ++ c :: t)) (t : Text) :
    P t := by
  -- The characters that have been passed wait in `s` until white space or the end is met.
  suffices all : ∀ s, Unbroken s → P (s ++ t) from all [] unbroken_nil
  induction t with
  | nil =>
      intro s solid
      rw [List.append_nil]
      exact unbroken s solid
  | cons c t ih =>
      intro s solid
      cases blank : isBlankChar c with
      | true => exact broken s c t solid blank (ih [] unbroken_nil)
      | false =>
          rw [← List.singleton_append, ← List.append_assoc]
          refine ih (s ++ [c]) fun d member => ?_
          rcases List.mem_append.mp member with before | last
          · exact solid d before
          · rw [List.mem_singleton.mp last]
            exact blank

/-! ## Words -/

theorem words_nil : words [] = [] := words_of_isBlank rfl

/-- A text without white space is one word. -/
theorem words_of_unbroken (some_ : t ≠ []) (unbroken : Unbroken t) : words t = [t] := by
  cases t with
  | nil => exact absurd rfl some_
  | cons c t =>
      have begins : (c :: t).dropWhile isBlankChar = c :: t :=
        List.dropWhile_cons_of_neg (by simp [unbroken c List.mem_cons_self])
      have solid : ∀ d ∈ t, (!isBlankChar d) = true := fun d member => by
        simp [unbroken d (List.mem_cons_of_mem c member)]
      rw [words_of_dropWhile begins, List.takeWhile_eq_self_iff.mpr solid,
        List.dropWhile_eq_nil_iff.mpr solid, words_nil]

/-- White space ends a word. -/
theorem words_append_cons (s : Text) (blank : isBlankChar c = true) (t : Text) :
    words (s ++ c :: t) = words s ++ words t := by
  induction s using words.induct with
  | case1 s none_ =>
      have front : ∀ d ∈ s ++ [c], isBlankChar d = true := by
        rw [List.dropWhile_eq_nil_iff] at none_
        simpa [or_imp, forall_and, blank] using none_
      rw [words_of_isBlank (isBlank_iff.mpr none_), List.nil_append,
        ← words_append_left front t, List.append_assoc, List.singleton_append]
  | case2 s a rest begins ih =>
      have begins' : (s ++ c :: t).dropWhile isBlankChar = a :: (rest ++ c :: t) := by
        rw [List.dropWhile_append, begins]
        rfl
      have first : (rest ++ c :: t).takeWhile (!isBlankChar ·) = rest.takeWhile (!isBlankChar ·) := by
        rw [List.takeWhile_append]
        split
        · rename_i whole
          rw [List.takeWhile_cons_of_neg (by simp [blank]), List.append_nil]
          exact ((List.takeWhile_prefix _).eq_of_length whole).symm
        · rfl
      have others : (rest ++ c :: t).dropWhile (!isBlankChar ·) =
          rest.dropWhile (!isBlankChar ·) ++ c :: t := by
        rw [List.dropWhile_append]
        split
        · rename_i ends
          rw [List.isEmpty_iff.mp ends, List.dropWhile_cons_of_neg (by simp [blank])]
          rfl
        · rfl
      rw [words_of_dropWhile begins, words_of_dropWhile begins', first, others, ih]
      rfl

/-- A word stands between white space: it is not empty, there is none in it, and what stands before
and behind it ends and begins with some. -/
structure StandsIn (w t front back : Text) : Prop where
  some_ : w ≠ []
  unbroken : Unbroken w
  whole : t = front ++ w ++ back
  before : ∀ c ∈ front.getLast?, isBlankChar c = true
  behind : ∀ c ∈ back.head?, isBlankChar c = true

theorem exists_standsIn (member : w ∈ words t) : ∃ front back, StandsIn w t front back := by
  have first : ∀ {s}, Unbroken s → w ∈ words s → w = s ∧ s ≠ [] := fun {s} unbroken member => by
    by_cases some_ : s = []
    · rw [some_, words_nil] at member
      cases member
    · rw [words_of_unbroken some_ unbroken, List.mem_singleton] at member
      exact ⟨member, some_⟩
  induction t using induction_on_blanks with
  | unbroken t unbroken =>
      obtain ⟨rfl, some_⟩ := first unbroken member
      exact ⟨[], [], some_, unbroken, by simp, by simp, by simp⟩
  | broken s c t unbroken blank ih =>
      rw [words_append_cons s blank, List.mem_append] at member
      rcases member with before | behind
      · obtain ⟨rfl, some_⟩ := first unbroken before
        exact ⟨[], c :: t, some_, unbroken, by simp, by simp, by simp [blank]⟩
      · obtain ⟨front, back, some_, unbroken', whole, before, after⟩ := ih behind
        refine ⟨s ++ c :: front, back, some_, unbroken', by simp [whole], fun d last => ?_, after⟩
        cases front with
        | nil =>
            simp only [List.getLast?_append, List.getLast?_singleton, Option.some_or, Option.mem_def,
              Option.some.injEq] at last
            exact last ▸ blank
        | cons e front => exact before d (by simpa [List.getLast?_append] using last)

/-- A word is not empty, and there is no white space in it. -/
theorem of_mem_words (member : w ∈ words t) : w ≠ [] ∧ Unbroken w := by
  obtain ⟨front, back, stands⟩ := exists_standsIn member
  exact ⟨stands.some_, stands.unbroken⟩

/-! ## Functions that take a text word by word -/

/-- White space in a text keeps apart what is made of its parts, and nothing is made of it. -/
structure Wordwise (f : Text → List α) : Prop where
  nil : f [] = []
  append_cons : ∀ s c t, isBlankChar c = true → f (s ++ c :: t) = f s ++ f t

/-- White space stays where it is, and divides the text. -/
structure KeepsBlanks (g : Text → Text) : Prop where
  nil : g [] = []
  append_cons : ∀ s c t, isBlankChar c = true → g (s ++ c :: t) = g s ++ c :: g t

theorem wordwise_words : Wordwise words :=
  ⟨words_nil, fun s _ t blank => words_append_cons s blank t⟩

namespace Wordwise

variable {f : Text → List α} {g : Text → Text}

theorem comp (wordwise : Wordwise f) (keeps : KeepsBlanks g) : Wordwise fun t => f (g t) where
  nil := by rw [keeps.nil, wordwise.nil]
  append_cons := fun s c t blank => by
    rw [keeps.append_cons s c t blank, wordwise.append_cons _ _ _ blank]

/-- White space in front of a text adds nothing. -/
theorem cons (wordwise : Wordwise f) (blank : isBlankChar c = true)
    (t : Text) : f (c :: t) = f t := by
  rw [← List.nil_append (c :: t), wordwise.append_cons _ _ _ blank, wordwise.nil, List.nil_append]

/-- **Only the words of a text matter.** -/
theorem eq_flatMap (wordwise : Wordwise f) (t : Text) : f t = (words t).flatMap f := by
  have single : ∀ t, Unbroken t → f t = (words t).flatMap f := fun t unbroken => by
    by_cases some_ : t = []
    · rw [some_, wordwise.nil, words_nil]
      rfl
    · rw [words_of_unbroken some_ unbroken, List.flatMap_singleton]
  induction t using induction_on_blanks with
  | unbroken t unbroken => exact single t unbroken
  | broken s c t unbroken blank ih =>
      rw [wordwise.append_cons s c t blank, words_append_cons s blank, List.flatMap_append, ← ih,
        ← single s unbroken]

/-- Texts with spaces between them are taken one by one. -/
theorem join (wordwise : Wordwise f) (ws : List Text) : f (join " " ws) = ws.flatMap f := by
  induction ws with
  | nil => exact wordwise.nil
  | cons w ws ih =>
      cases ws with
      | nil => rw [join_singleton, List.flatMap_singleton]
      | cons next ws =>
          rw [join_cons_cons, List.append_assoc, List.flatMap_cons, ← ih]
          exact wordwise.append_cons w ' ' _ (by decide)

end Wordwise

/-- Words with spaces between them are the words of the text. -/
theorem words_join {ws : List Text} (solid : ∀ w ∈ ws, w ≠ [] ∧ Unbroken w) :
    words (join " " ws) = ws := by
  have each : ∀ w ∈ ws, words w = [w] := fun w member =>
    words_of_unbroken (solid w member).1 (solid w member).2
  rw [wordwise_words.join, List.flatMap_congr each, List.flatMap_singleton']

theorem trimmed_of_unbroken (unbroken : Unbroken t) : Trimmed t :=
  ⟨fun c first => unbroken c (List.mem_of_mem_head? first),
    fun c last => unbroken c (List.mem_of_mem_getLast? last)⟩

/-- Words with spaces between them have none at their ends. -/
theorem trimmed_join {ws : List Text} (solid : ∀ w ∈ ws, w ≠ [] ∧ Unbroken w) :
    Trimmed (join " " ws) := by
  induction ws with
  | nil => exact trimmed_of_unbroken unbroken_nil
  | cons w ws ih =>
      have first := solid w List.mem_cons_self
      have others : ∀ v ∈ ws, v ≠ [] ∧ Unbroken v := fun v member =>
        solid v (List.mem_cons_of_mem w member)
      cases ws with
      | nil =>
          rw [join_singleton]
          exact trimmed_of_unbroken first.2
      | cons next ws =>
          have some_ : join " " (next :: ws) ≠ [] := by
            rw [Ne, join_eq_nil_iff (by decide) fun v member => (others v member).1]
            exact List.cons_ne_nil _ _
          rw [join_cons_cons]
          exact trimmed_append (trimmed_of_unbroken first.2) (ih others) first.1 some_ _

end CodeAtlas.Text
