/-
# Proofs.Text.Pieces -- trimming, cutting and joining

A text is `Trimmed` when it has no white space at either end; those are the texts that `trim` leaves
alone (`trim_of_trimmed`), and the only ones that it gives (`trimmed_trim`).  White space beside a
text does not matter to `trim` (`trim_cons_of_blank`, `trim_concat_of_blank`,
`trim_append_trimRight`).

Cutting at a character undoes joining with it as long as no piece holds it (`splitOn_join`), and no
piece of a cut text does (`not_mem_of_mem_splitOn`).

A word that is looked for is found where it stands or further in front (`exists_find?_append`).
-/
import Mathlib.Data.List.DropRight
import CodeAtlas.Text.Basic

namespace CodeAtlas.Text

set_option autoImplicit false

/-! ## Trimming -/

/-- No white space at either end. -/
def Trimmed (t : Text) : Prop :=
  (∀ c ∈ t.head?, isBlankChar c = false) ∧ ∀ c ∈ t.getLast?, isBlankChar c = false

theorem trimRight_eq (t : Text) : trimRight t = t.rdropWhile isBlankChar := rfl

theorem trimLeft_of_trimmed {t : Text} (trimmed : Trimmed t) : trimLeft t = t := by
  cases t with
  | nil => rfl
  | cons c rest => simp [trimLeft, trimmed.1 c rfl]

theorem trimRight_of_trimmed {t : Text} (trimmed : Trimmed t) : trimRight t = t := by
  rw [trimRight_eq, List.rdropWhile_eq_self_iff]
  intro some_
  simp [trimmed.2 _ (List.getLast?_eq_some_getLast some_)]

/-- A trimmed text stays as it is. -/
theorem trim_of_trimmed {t : Text} (trimmed : Trimmed t) : trim t = t := by
  rw [trim, trimLeft_of_trimmed trimmed, trimRight_of_trimmed trimmed]

theorem trim_prefix_trimLeft (t : Text) : trim t <+: trimLeft t := List.rdropWhile_prefix _ _

theorem trimmed_trim (t : Text) : Trimmed (trim t) := by
  refine ⟨fun c first => ?_, fun c last => ?_⟩
  · have begins := List.head?_dropWhile_not isBlankChar t
    have first' : (trimLeft t).head? = some c := by
      obtain ⟨cut, whole⟩ := trim_prefix_trimLeft t
      rw [← whole, List.head?_append, first]
      rfl
    rw [trimLeft] at first'
    rw [first'] at begins
    exact begins
  · rw [Option.mem_def, trim, trimRight_eq, List.getLast?_eq_some_iff] at last
    obtain ⟨front, whole⟩ := last
    have some_ : (trimLeft t).rdropWhile isBlankChar ≠ [] := by simp [whole]
    have ends := List.rdropWhile_last_not isBlankChar _ some_
    simpa [whole] using ends

theorem trim_trim (t : Text) : trim (trim t) = trim t := trim_of_trimmed (trimmed_trim t)

theorem trimmed_append {s t : Text} (hs : Trimmed s) (ht : Trimmed t) (some_ : s ≠ [])
    (some' : t ≠ []) (between : Text) : Trimmed (s ++ between ++ t) := by
  constructor
  · intro c first
    rw [List.append_assoc, List.head?_append_of_ne_nil _ some_] at first
    exact hs.1 c first
  · intro c last
    rw [List.getLast?_append_of_ne_nil _ some'] at last
    exact ht.2 c last

/-- A trimmed front keeps the white space behind it from being trimmed in front. -/
theorem trimLeft_append {s : Text} (trimmed : Trimmed s) (some_ : s ≠ []) (t : Text) :
    trimLeft (s ++ t) = s ++ t := by
  cases s with
  | nil => exact absurd rfl some_
  | cons c s => simp [trimLeft, trimmed.1 c rfl]

theorem trim_isInfix (t : Text) : trim t <:+: t :=
  (trim_prefix_trimLeft t).isInfix.trans (List.dropWhile_suffix isBlankChar).isInfix

theorem mem_of_mem_trim {t : Text} {c : Char} (member : c ∈ trim t) : c ∈ t :=
  (trim_isInfix t).mem member

theorem trim_cons_of_blank {c : Char} (blank : isBlankChar c = true) (t : Text) :
    trim (c :: t) = trim t := by
  rw [trim, trimLeft, List.dropWhile_cons_of_pos blank]
  rfl

theorem trim_concat_of_blank {c : Char} (blank : isBlankChar c = true) (t : Text) :
    trim (t ++ [c]) = trim t := by
  have reaches : trimLeft (t ++ [c]) = trimLeft t ++ [c] ∨
      trimLeft (t ++ [c]) = [] ∧ trimLeft t = [] := by
    simp only [trimLeft, List.dropWhile_append]
    split
    · rename_i empty
      exact .inr ⟨by simp [blank], List.isEmpty_iff.mp empty⟩
    · exact .inl rfl
  rcases reaches with kept | ⟨gone, gone'⟩
  · rw [trim, kept, trimRight_eq, List.rdropWhile_concat_pos _ _ _ blank]
    rfl
  · rw [trim, gone, trim, gone']

theorem isBlank_iff {t : Text} : isBlank t = true ↔ t.dropWhile isBlankChar = [] := by
  rw [isBlank, List.all_eq_true, List.dropWhile_eq_nil_iff]

theorem isBlank_cons (c : Char) (t : Text) : isBlank (c :: t) = (isBlankChar c && isBlank t) := rfl

theorem trimRight_of_isBlank {t : Text} (blank : isBlank t = true) : trimRight t = [] := by
  rw [trimRight_eq, List.rdropWhile_eq_nil_iff]
  simpa [isBlank] using blank

/-- Trimming at the end keeps the first character, unless nothing is kept at all. -/
theorem trimRight_cons {c : Char} {t : Text} (solid : isBlank (c :: t) = false) :
    trimRight (c :: t) = c :: trimRight t := by
  rw [trimRight_eq, trimRight_eq, List.rdropWhile, List.reverse_cons, List.dropWhile_append]
  split
  · rename_i gone
    have blank : isBlank t = true := by
      rw [isBlank, ← List.all_reverse, ← isBlank, isBlank_iff]
      exact List.isEmpty_iff.mp gone
    rw [isBlank_cons, blank, Bool.and_true] at solid
    rw [← trimRight_eq, trimRight_of_isBlank blank, List.dropWhile_cons_of_neg (by simp [solid])]
    rfl
  · simp [List.rdropWhile]

/-- White space at the end does not matter to `trim`. -/
theorem trim_append_trimRight (s t : Text) : trim (s ++ trimRight t) = trim (s ++ t) := by
  have whole : trimRight t ++ t.rtakeWhile isBlankChar = t := List.rdropWhile_append_rtakeWhile
  have blank : ∀ c ∈ t.rtakeWhile isBlankChar, isBlankChar c = true :=
    fun c => List.mem_rtakeWhile_imp
  have drop : ∀ u : Text, (∀ c ∈ u, isBlankChar c = true) →
      trim (s ++ trimRight t ++ u) = trim (s ++ trimRight t) := by
    intro u
    induction u using List.reverseRecOn with
    | nil => simp
    | append_singleton u c ih =>
        intro blank
        rw [← List.append_assoc, trim_concat_of_blank (blank c (by simp))]
        exact ih fun d member => blank d (by simp [member])
  rw [← drop _ blank, List.append_assoc, whole]

/-- Trimming at the end leaves alone what stands in front of a text that is not blank. -/
theorem trimRight_append (s : Text) {t : Text} (solid : isBlank t = false) :
    trimRight (s ++ t) = s ++ trimRight t := by
  induction s with
  | nil => rfl
  | cons c s ih =>
      have solid' : isBlank (c :: (s ++ t)) = false := by
        rw [isBlank] at solid
        simp [isBlank, solid]
      rw [List.cons_append, trimRight_cons solid', ih, List.cons_append]

/-- Trimming in front leaves alone what stands behind a text that is not blank. -/
theorem trimLeft_append_of_solid {s : Text} (solid : isBlank s = false) (t : Text) :
    trimLeft (s ++ t) = trimLeft s ++ t := by
  have some_ : s.dropWhile isBlankChar ≠ [] := by
    rw [ne_eq, ← isBlank_iff, solid]
    exact Bool.false_ne_true
  rw [trimLeft, List.dropWhile_append, if_neg (by simpa using some_)]
  rfl

theorem trim_trimLeft (t : Text) : trim (trimLeft t) = trim t := by
  rw [trim, trim, trimLeft, trimLeft, List.dropWhile_idempotent]

/-- **Only white space is trimmed away.** -/
theorem exists_append_trim (t : Text) : ∃ front back, t = front ++ trim t ++ back ∧
    (∀ c ∈ front, isBlankChar c = true) ∧ ∀ c ∈ back, isBlankChar c = true := by
  refine ⟨t.takeWhile isBlankChar, (trimLeft t).rtakeWhile isBlankChar, ?_,
    fun c => List.mem_takeWhile_imp, fun c => List.mem_rtakeWhile_imp⟩
  have right : trim t ++ (trimLeft t).rtakeWhile isBlankChar = trimLeft t :=
    List.rdropWhile_append_rtakeWhile
  rw [List.append_assoc, right]
  exact List.takeWhile_append_dropWhile.symm

theorem mem_trim {t : Text} {c : Char} (solid : isBlankChar c = false) (member : c ∈ t) :
    c ∈ trim t := by
  obtain ⟨front, back, whole, blank, blank'⟩ := exists_append_trim t
  rw [whole, List.mem_append, List.mem_append] at member
  rcases member with (before | inside) | behind
  · simp [blank c before] at solid
  · exact inside
  · simp [blank' c behind] at solid

/-! ## Cutting and joining -/

section Cutting

variable {sep : Char}

theorem splitOn_ne_nil (t : Text) : splitOn sep t ≠ [] := by
  cases t with
  | nil => simp [splitOn]
  | cons c rest =>
      rw [splitOn]
      split
      · simp
      · split <;> simp

theorem splitOn_cons_self (t : Text) : splitOn sep (sep :: t) = [] :: splitOn sep t := by
  simp [splitOn]

/-- A character that does not cut goes to the first piece. -/
theorem splitOn_cons_of_ne {c : Char} (other : c ≠ sep) (t : Text) :
    ∃ piece pieces, splitOn sep t = piece :: pieces ∧
      splitOn sep (c :: t) = (c :: piece) :: pieces := by
  cases cut : splitOn sep t with
  | nil => exact absurd cut (splitOn_ne_nil t)
  | cons piece pieces => exact ⟨piece, pieces, rfl, by simp [splitOn, other, cut]⟩

/-- Every cut takes a character. -/
theorem length_splitOn_le (t : Text) : (splitOn sep t).length ≤ t.length + 1 := by
  induction t with
  | nil => simp [splitOn]
  | cons c rest ih =>
      by_cases here : c = sep
      · rw [here, splitOn_cons_self, List.length_cons, List.length_cons]
        omega
      · obtain ⟨piece, pieces, cut, cut'⟩ := splitOn_cons_of_ne here rest
        rw [cut, List.length_cons] at ih
        rw [cut', List.length_cons, List.length_cons]
        omega

theorem splitOn_of_not_mem {t : Text} (absent : sep ∉ t) : splitOn sep t = [t] := by
  induction t with
  | nil => rfl
  | cons c rest ih =>
      rw [List.mem_cons, not_or] at absent
      obtain ⟨piece, pieces, cut, cut'⟩ := splitOn_cons_of_ne (Ne.symm absent.1) rest
      rw [ih absent.2, List.cons.injEq] at cut
      rw [cut', ← cut.1, ← cut.2]

theorem splitOn_append_cons {a : Text} (absent : sep ∉ a) (t : Text) :
    splitOn sep (a ++ sep :: t) = a :: splitOn sep t := by
  induction a with
  | nil => exact splitOn_cons_self t
  | cons c a ih =>
      rw [List.mem_cons, not_or] at absent
      obtain ⟨piece, pieces, cut, cut'⟩ := splitOn_cons_of_ne (Ne.symm absent.1) (a ++ sep :: t)
      rw [ih absent.2, List.cons.injEq] at cut
      rw [List.cons_append, cut', ← cut.1, ← cut.2]

/-- The pieces before a cut, and the pieces behind it. -/
theorem splitOn_append (s t : Text) :
    splitOn sep (s ++ sep :: t) = splitOn sep s ++ splitOn sep t := by
  induction s with
  | nil => exact splitOn_cons_self t
  | cons c s ih =>
      by_cases same : c = sep
      · rw [same, List.cons_append, splitOn_cons_self, splitOn_cons_self, ih, List.cons_append]
      · obtain ⟨piece, pieces, cut, cut'⟩ := splitOn_cons_of_ne same s
        obtain ⟨first, others, whole, whole'⟩ := splitOn_cons_of_ne same (s ++ sep :: t)
        rw [ih, cut, List.cons_append, List.cons.injEq] at whole
        rw [List.cons_append, whole', cut', ← whole.1, ← whole.2, List.cons_append]

theorem not_mem_of_mem_splitOn {t piece : Text} (member : piece ∈ splitOn sep t) : sep ∉ piece := by
  induction t generalizing piece with
  | nil =>
      rw [splitOn, List.mem_singleton] at member
      simp [member]
  | cons c rest ih =>
      by_cases same : c = sep
      · subst same
        rw [splitOn_cons_self, List.mem_cons] at member
        rcases member with rfl | member
        · exact List.not_mem_nil
        · exact ih member
      · obtain ⟨first, pieces, cut, cut'⟩ := splitOn_cons_of_ne same rest
        rw [cut', List.mem_cons] at member
        rcases member with rfl | member
        · rw [List.mem_cons, not_or]
          exact ⟨Ne.symm same, ih (by simp [cut])⟩
        · exact ih (by simp [cut, member])

theorem join_cons_cons (glue piece next : Text) (pieces : List Text) :
    join glue (piece :: next :: pieces) = piece ++ glue ++ join glue (next :: pieces) := by
  simp [join, List.intercalate]

@[simp] theorem join_singleton (glue piece : Text) : join glue [piece] = piece := by
  simp [join, List.intercalate]

@[simp] theorem join_nil (glue : Text) : join glue [] = [] := rfl

theorem join_append {glue : Text} {P Q : List Text} (hP : P ≠ []) (hQ : Q ≠ []) :
    join glue (P ++ Q) = join glue P ++ glue ++ join glue Q := by
  obtain ⟨q, Q, rfl⟩ := List.exists_cons_of_ne_nil hQ
  induction P with
  | nil => exact absurd rfl hP
  | cons p P ih =>
      cases P with
      | nil => rw [List.singleton_append, join_cons_cons, join_singleton]
      | cons p' P =>
          rw [List.cons_append, List.cons_append, join_cons_cons, join_cons_cons,
            ← List.cons_append, ih (by simp)]
          simp only [List.append_assoc]

theorem mem_join {glue : Text} {pieces : List Text} {c : Char} (member : c ∈ join glue pieces) :
    c ∈ glue ∨ ∃ piece ∈ pieces, c ∈ piece := by
  induction pieces with
  | nil => simp at member
  | cons piece pieces ih =>
      cases pieces with
      | nil =>
          rw [join_singleton] at member
          exact .inr ⟨piece, List.mem_cons_self, member⟩
      | cons next pieces =>
          rw [join_cons_cons, List.mem_append, List.mem_append] at member
          rcases member with (here | glued) | later
          · exact .inr ⟨piece, List.mem_cons_self, here⟩
          · exact .inl glued
          · refine (ih later).imp_right fun ⟨p, known, inside⟩ => ?_
            exact ⟨p, List.mem_cons_of_mem _ known, inside⟩

/-- What does not cut is in one of the pieces. -/
theorem exists_mem_splitOn {t : Text} {c : Char} (other : c ≠ sep) (member : c ∈ t) :
    ∃ piece ∈ splitOn sep t, c ∈ piece := by
  induction t with
  | nil => cases member
  | cons d rest ih =>
      by_cases same : d = sep
      · subst same
        obtain ⟨piece, known, inside⟩ := ih ((List.mem_cons.mp member).resolve_left other)
        exact ⟨piece, by simp [splitOn_cons_self, known], inside⟩
      · obtain ⟨first, pieces, cut, cut'⟩ := splitOn_cons_of_ne same rest
        rw [cut']
        rcases List.mem_cons.mp member with rfl | later
        · exact ⟨c :: first, by simp, by simp⟩
        · obtain ⟨piece, known, inside⟩ := ih later
          rw [cut, List.mem_cons] at known
          rcases known with rfl | known
          · exact ⟨d :: piece, by simp, by simp [inside]⟩
          · exact ⟨piece, by simp [known], inside⟩

/-- Cutting undoes joining, when no piece holds the character between them. -/
theorem splitOn_join {pieces : List Text} (some_ : pieces ≠ [])
    (absent : ∀ piece ∈ pieces, sep ∉ piece) : splitOn sep (join [sep] pieces) = pieces := by
  induction pieces with
  | nil => exact absurd rfl some_
  | cons piece pieces ih =>
      cases pieces with
      | nil => rw [join_singleton, splitOn_of_not_mem (absent piece (by simp))]
      | cons next pieces =>
          rw [join_cons_cons, List.append_assoc, List.singleton_append,
            splitOn_append_cons (absent piece (by simp)),
            ih (by simp) fun p member => absent p (List.mem_cons_of_mem _ member)]

theorem join_eq_nil_iff {glue : Text} (visible : glue ≠ []) {pieces : List Text}
    (solid : ∀ piece ∈ pieces, piece ≠ []) : join glue pieces = [] ↔ pieces = [] := by
  cases pieces with
  | nil => simp
  | cons piece pieces =>
      cases pieces with
      | nil => simpa using solid piece (by simp)
      | cons next pieces => simp [join_cons_cons, visible]

/-- Pieces are told from what they make when joined. -/
theorem join_inj {pieces pieces' : List Text}
    (solid : ∀ piece ∈ pieces, piece ≠ [] ∧ sep ∉ piece)
    (solid' : ∀ piece ∈ pieces', piece ≠ [] ∧ sep ∉ piece)
    (same : join [sep] pieces = join [sep] pieces') : pieces = pieces' := by
  have visible : [sep] ≠ [] := by simp
  have empty := join_eq_nil_iff visible fun piece member => (solid piece member).1
  have empty' := join_eq_nil_iff visible fun piece member => (solid' piece member).1
  by_cases none_ : pieces = []
  · rw [none_, empty'.mp (same.symm.trans (empty.mpr none_))]
  · have some_ : pieces' ≠ [] := fun none' => none_ (empty.mp (same.trans (empty'.mpr none')))
    have cuts := congrArg (splitOn sep) same
    rwa [splitOn_join none_ fun piece member => (solid piece member).2,
      splitOn_join some_ fun piece member => (solid' piece member).2] at cuts

/-- What does not cut belongs to the part before the cut. -/
theorem cut_append_left {s : Text} (absent : sep ∉ s) (t : Text) :
    cut sep (s ++ t) = (s ++ (cut sep t).1, (cut sep t).2) := by
  have whole : ∀ c ∈ s, (c != sep) = true := fun c member => by
    simpa using fun same : c = sep => absent (same ▸ member)
  rw [cut, List.takeWhile_append_of_pos whole, List.dropWhile_append_of_pos whole]
  rfl

theorem cut_of_not_mem {t : Text} (absent : sep ∉ t) : cut sep t = (t, none) := by
  simpa [cut] using cut_append_left absent []

theorem cut_append {s : Text} (absent : sep ∉ s) (t : Text) :
    cut sep (s ++ sep :: t) = (s, some t) := by
  rw [cut_append_left absent]
  simp [cut]

/-- White space in front of a text belongs to what is before the cut. -/
theorem cut_trimLeft (solid : isBlankChar sep = false) (t : Text) :
    cut sep (trimLeft t) = (trimLeft (cut sep t).1, (cut sep t).2) := by
  induction t with
  | nil => rfl
  | cons c t ih =>
      by_cases blank : isBlankChar c = true
      · have other : c ≠ sep := by
          rintro rfl
          simp [blank] at solid
        simpa [cut, trimLeft, blank, other] using ih
      · by_cases same : c = sep
        · simp [cut, trimLeft, same, solid]
        · simp [cut, trimLeft, same, blank]

end Cutting

/-! ## Finding -/

theorem find?_eq_none_iff {needle t : Text} : find? needle t = none ↔ ¬ needle <:+: t := by
  induction t with
  | nil => simp [find?, List.infix_nil]
  | cons c t ih =>
      rw [List.infix_cons_iff, not_or, ← ih, find?]
      by_cases here : needle <+: c :: t <;> simp [here]

/-- **The first occurrence is not behind any other**: what stands between the front of the text and
the end of an occurrence ends in the first one and what follows it. -/
theorem exists_find?_append (needle before behind : Text) :
    ∃ front back, find? needle (before ++ needle ++ behind) = some front.length ∧
      before ++ needle = front ++ needle ++ back := by
  induction before with
  | nil =>
      refine ⟨[], [], ?_, by simp⟩
      cases needle with
      | nil => cases behind <;> simp [find?]
      | cons a needle => simp [find?]
  | cons c before ih =>
      simp only [List.cons_append, find?]
      split
      · rename_i here
        rw [List.isPrefixOf_iff_prefix, ← List.cons_append, ← List.cons_append] at here
        obtain ⟨back, whole⟩ : needle <+: c :: before ++ needle :=
          List.prefix_of_prefix_length_le here (List.prefix_append _ _) (by simp; omega)
        exact ⟨[], back, rfl, by simpa using whole.symm⟩
      · obtain ⟨front, back, found, whole⟩ := ih
        exact ⟨c :: front, back, by rw [found]; rfl, by simpa using whole⟩

/-- A text that begins with a word begins with it in front of any character the word lacks. -/
theorem prefix_of_prefix_append_cons {word s t : Text} {c : Char} (apart : c ∉ word)
    (begins : word <+: s ++ c :: t) : word <+: s := by
  by_cases short : word.length ≤ s.length
  · exact List.prefix_of_prefix_length_le begins (List.prefix_append _ _) short
  · have longer : s ++ [c] <+: word := by
      refine List.prefix_of_prefix_length_le ⟨t, by simp⟩ begins ?_
      rw [List.length_append, List.length_singleton]
      omega
    exact absurd (longer.subset (by simp)) apart

/-- Characters that a word lacks do not make it occur. -/
theorem not_isInfix_append {word s t : Text} (some_ : word ≠ []) (absent : ¬ word <:+: s)
    (apart : ∀ c ∈ t, c ∉ word) : ¬ word <:+: s ++ t := by
  induction t using List.reverseRecOn with
  | nil => rwa [List.append_nil]
  | append_singleton t c ih =>
      rw [← List.append_assoc, List.infix_concat_iff, not_or]
      refine ⟨fun ends => ?_, ih fun d member => apart d (by simp [member])⟩
      obtain ⟨front, whole⟩ := ends
      have last := congrArg List.getLast? whole
      rw [List.getLast?_append_of_ne_nil _ some_, List.getLast?_concat,
        List.getLast?_eq_some_getLast some_, Option.some.injEq] at last
      exact apart c (by simp) (last ▸ List.getLast_mem some_)

/-! ## Words -/

theorem words_of_isBlank {t : Text} (blank : isBlank t = true) : words t = [] := by
  rw [isBlank_iff] at blank
  rw [words]
  split
  · rfl
  · rename_i c rest begins
    rw [blank] at begins
    cases begins

theorem words_of_dropWhile {t rest : Text} {c : Char}
    (begins : t.dropWhile isBlankChar = c :: rest) :
    words t = (c :: rest.takeWhile (!isBlankChar ·)) :: words (rest.dropWhile (!isBlankChar ·)) := by
  rw [words]
  split
  · rename_i blank
    rw [begins] at blank
    cases blank
  · rename_i c' rest' begins'
    rw [begins] at begins'
    cases begins'
    rfl

/-- White space in front of the words does not matter, -/
theorem words_append_left {front : Text} (blank : ∀ c ∈ front, isBlankChar c = true) (t : Text) :
    words (front ++ t) = words t := by
  have begins : (front ++ t).dropWhile isBlankChar = t.dropWhile isBlankChar :=
    List.dropWhile_append_of_pos blank
  cases same : t.dropWhile isBlankChar with
  | nil =>
      rw [words_of_isBlank (isBlank_iff.mpr same),
        words_of_isBlank (isBlank_iff.mpr (begins.trans same))]
  | cons c rest => rw [words_of_dropWhile same, words_of_dropWhile (begins.trans same)]

/-- and neither does white space behind them. -/
theorem words_append_right (t : Text) {back : Text} (blank : ∀ c ∈ back, isBlankChar c = true) :
    words (t ++ back) = words t := by
  have blank' : isBlank back = true := List.all_eq_true.mpr blank
  induction t using words.induct with
  | case1 t none_ =>
      have all : isBlank (t ++ back) = true := by
        rw [isBlank, List.all_append, ← isBlank, ← isBlank, isBlank_iff.mpr none_, blank']
        rfl
      rw [words_of_isBlank all, words_of_isBlank (isBlank_iff.mpr none_)]
  | case2 t c rest begins ih =>
      have begins' : (t ++ back).dropWhile isBlankChar = c :: (rest ++ back) := by
        rw [List.dropWhile_append, begins]
        rfl
      have solid : back.takeWhile (!isBlankChar ·) = [] := by
        cases back with
        | nil => rfl
        | cons a back => simp [blank a List.mem_cons_self]
      have first : (rest ++ back).takeWhile (!isBlankChar ·) = rest.takeWhile (!isBlankChar ·) := by
        rw [List.takeWhile_append, solid, List.append_nil]
        split
        · rename_i whole
          exact ((List.takeWhile_prefix _).eq_of_length whole).symm
        · rfl
      have others : words ((rest ++ back).dropWhile (!isBlankChar ·)) =
          words (rest.dropWhile (!isBlankChar ·)) := by
        rw [List.dropWhile_append]
        split
        · rename_i ends
          have last : back.dropWhile (!isBlankChar ·) = back := by
            have parts := List.takeWhile_append_dropWhile (p := (!isBlankChar ·)) (l := back)
            rwa [solid] at parts
          rw [last, words_of_isBlank blank', List.isEmpty_iff.mp ends, words_of_isBlank rfl]
        · exact ih
      rw [words_of_dropWhile begins, words_of_dropWhile begins', first, others]

/-- **Trimming keeps the words.** -/
theorem words_trim (t : Text) : words (trim t) = words t := by
  obtain ⟨front, back, whole, blank, blank'⟩ := exists_append_trim t
  calc words (trim t) = words (front ++ trim t) := (words_append_left blank _).symm
    _ = words (front ++ trim t ++ back) := (words_append_right _ blank').symm
    _ = words t := by rw [← whole]

/-! ## One character for another -/

theorem replace_singleton (old new : Char) (t : Text) :
    replace [old] [new] t = t.map fun c => if c = old then new else c := by
  induction t using replace.induct [old] with
  | case1 =>
      rw [replace]
      rfl
  | case2 c rest begins ih =>
      obtain rfl : old = c := by simpa using begins
      rw [replace, if_pos begins, ih]
      simp
  | case3 c rest other ih =>
      have different : c ≠ old := by
        rintro rfl
        simp at other
      rw [replace, if_neg other, ih, List.map_cons, if_neg different]

end CodeAtlas.Text
