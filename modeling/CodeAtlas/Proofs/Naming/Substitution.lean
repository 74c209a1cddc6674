/-
# Proofs.Naming.Substitution -- words that are replaced, and words that stay away

A word *occurs* where it stands between word boundaries (`Occurs`).  Substitution looks for nothing
else, so a text in which no word of the vocabulary occurs stays as it is
(`substitute_of_not_occurs`).  White space is no part of a word and makes a boundary of its own, so
substitution never looks across it (`keepsBlanks_substitute`).

A pass over a text keeps characters and replaces words, in turns (`Substituted`).  What it writes
may make up a word, alone or with what stands beside it, but no word that is *apart* from all that
is written (`Apart`): neither of the two, taken from one of its boundaries on, begins with the
other.  Such a word does not occur after the pass if it did not occur before, or is replaced
(`Substituted.not_occurs`).
-/
import CodeAtlas.Naming.Canonical
import CodeAtlas.Proofs.Text.Words

namespace CodeAtlas.Naming

set_option autoImplicit false

open Text (isBoundary isWordChar isBlankChar KeepsBlanks StandsIn Unbroken)

variable {v : Vocabulary} {before after : Option Char} {c : Char} {word new s t r : Text}
  {e : Text × Text}

/-! ## Boundaries -/

theorem isWordChar_of_isBlankChar (blank : isBlankChar c = true) : isWordChar c = false := by
  have basics : ∀ n < 128, isBlankChar (Char.ofNat n) = true →
      isWordChar (Char.ofNat n) = false := by decide
  by_cases basic : c.toNat < 128
  · have same := basics c.toNat basic
    rw [Char.ofNat_toNat] at same
    exact same blank
  · rw [isWordChar, if_neg basic]
    exact Text.inRanges_of_isBlankChar blank (by decide +kernel)

theorem isBoundary_congr {before' after' : Option Char}
    (left : before.any isWordChar = before'.any isWordChar)
    (right : after.any isWordChar = after'.any isWordChar) :
    isBoundary before after = isBoundary before' after' := by
  rw [isBoundary, isBoundary, left, right]

/-- Behind a word character a boundary is where no word character comes. -/
theorem isBoundary_of_left (inside : before.any isWordChar = true) :
    isBoundary before after = !after.any isWordChar := by
  rw [isBoundary, inside]
  cases after.any isWordChar <;> rfl

/-- In front of a word character a boundary is where none has been. -/
theorem isBoundary_of_right (inside : after.any isWordChar = true) :
    isBoundary before after = !before.any isWordChar := by
  rw [isBoundary, inside]
  cases before.any isWordChar <;> rfl

/-- A text that begins and ends with a word character. -/
structure Framed (t : Text) : Prop where
  head : t.head?.any isWordChar = true
  last : t.getLast?.any isWordChar = true

theorem Framed.ne_nil (framed : Framed t) : t ≠ [] := by
  rintro rfl
  cases framed.head

/-! ## Occurrences -/

/-- The word stands in the text between word boundaries; `before` is the character before the text.
-/
def Occurs (before : Option Char) (word t : Text) : Prop :=
  ∃ front back, t = front ++ word ++ back ∧
    isBoundary (front.getLast?.or before) word.head? = true ∧
    isBoundary word.getLast? back.head? = true

theorem beginsWithWord_iff : beginsWithWord word t = true ↔
    ∃ back, t = word ++ back ∧ isBoundary word.getLast? back.head? = true := by
  rw [beginsWithWord]
  cases found : Text.after? word t with
  | none =>
      refine iff_of_false (by simp) ?_
      rintro ⟨back, whole, -⟩
      rw [Text.after?_eq_some_iff.mpr whole] at found
      cases found
  | some back =>
      rw [Text.after?_eq_some_iff] at found
      constructor
      · exact fun boundary => ⟨back, found, boundary⟩
      · rintro ⟨back', whole, boundary⟩
        rwa [List.append_cancel_left (found.symm.trans whole)]

theorem getLast?_cons_or (c : Char) (front : Text) (before : Option Char) :
    (c :: front).getLast?.or before = front.getLast?.or (some c) := by
  cases front with
  | nil => rfl
  | cons d front => simp [List.getLast?_cons]

theorem occurs_of_begins (left : isBoundary before word.head? = true)
    (begins : beginsWithWord word t = true) : Occurs before word t := by
  obtain ⟨back, whole, right⟩ := beginsWithWord_iff.mp begins
  exact ⟨[], back, whole, left, right⟩

/-- A word occurs at the first character or behind it. -/
theorem occurs_cons_iff : Occurs before word (c :: t) ↔
    isBoundary before word.head? = true ∧ beginsWithWord word (c :: t) = true ∨
      Occurs (some c) word t := by
  rw [beginsWithWord_iff]
  constructor
  · rintro ⟨front, back, whole, left, right⟩
    cases front with
    | nil => exact .inl ⟨left, back, whole, right⟩
    | cons d front =>
        rw [List.cons_append, List.cons_append, List.cons.injEq] at whole
        obtain ⟨rfl, rest⟩ := whole
        rw [getLast?_cons_or] at left
        exact .inr ⟨front, back, rest, left, right⟩
  · rintro (⟨left, back, whole, right⟩ | ⟨front, back, rfl, left, right⟩)
    · exact ⟨[], back, whole, left, right⟩
    · refine ⟨c :: front, back, rfl, ?_, right⟩
      rwa [getLast?_cons_or]

theorem not_occurs_nil (some_ : word ≠ []) : ¬Occurs before word [] := by
  rintro ⟨front, back, whole, -⟩
  simp [some_] at whole

/-- A word occurs from some character of the first text on, or in the second one. -/
theorem occurs_append_iff : Occurs before word (s ++ t) ↔
    (∃ rest front, s = front ++ rest ∧ rest ≠ [] ∧
      isBoundary (front.getLast?.or before) word.head? = true ∧
      beginsWithWord word (rest ++ t) = true) ∨ Occurs (s.getLast?.or before) word t := by
  induction s generalizing before with
  | nil => simp
  | cons c s ih =>
      rw [List.cons_append, occurs_cons_iff, ih, getLast?_cons_or, ← or_assoc]
      refine or_congr_left ⟨?_, ?_⟩
      · rintro (⟨left, here⟩ | ⟨rest, front, rfl, some_, left, here⟩)
        · exact ⟨c :: s, [], rfl, List.cons_ne_nil c s, left, here⟩
        · refine ⟨rest, c :: front, rfl, some_, ?_, here⟩
          rwa [getLast?_cons_or]
      · rintro ⟨rest, front, whole, some_, left, here⟩
        cases front with
        | nil =>
            rw [List.nil_append] at whole
            rw [← whole] at here
            exact .inl ⟨left, here⟩
        | cons d front =>
            rw [List.cons_append, List.cons.injEq] at whole
            obtain ⟨rfl, rfl⟩ := whole
            rw [getLast?_cons_or] at left
            exact .inr ⟨rest, front, rfl, some_, left, here⟩

theorem getLast?_or_of_ne_nil (some_ : t ≠ []) (before : Option Char) :
    t.getLast?.or before = t.getLast? := by
  rw [List.getLast?_eq_some_getLast some_]
  rfl

theorem Occurs.congr {before' : Option Char} (occurs : Occurs before word t)
    (same : before.any isWordChar = before'.any isWordChar) : Occurs before' word t := by
  obtain ⟨front, back, whole, left, right⟩ := occurs
  refine ⟨front, back, whole, ?_, right⟩
  rw [← left]
  refine isBoundary_congr ?_ rfl
  cases front.getLast? with
  | none => exact same.symm
  | some d => rfl

/-- What occurs in a word of a text occurs in the text. -/
theorem occurs_of_standsIn {w front back : Text} (stands : StandsIn w t front back)
    (occurs : Occurs none word w) : Occurs none word t := by
  obtain ⟨front', back', whole, left, right⟩ := occurs
  refine ⟨front ++ front', back' ++ back, ?_, ?_, ?_⟩
  · rw [stands.whole, whole]
    simp only [List.append_assoc]
  · rw [← left]
    refine isBoundary_congr ?_ rfl
    rw [List.getLast?_append]
    cases front'.getLast? with
    | some d => rfl
    | none =>
        cases last : front.getLast? with
        | none => rfl
        | some d => exact isWordChar_of_isBlankChar (stands.before d last)
  · rw [← right]
    refine isBoundary_congr rfl ?_
    rw [List.head?_append]
    cases back'.head? with
    | some d => rfl
    | none =>
        cases first : back.head? with
        | none => rfl
        | some d => exact isWordChar_of_isBlankChar (stands.behind d first)

/-! ## The entry at a place -/

theorem longest_spec (entries : List (Text × Text)) (best : Option (Text × Text)) :
    let longest := entries.foldl (fun best entry =>
      match best with
      | some b => if b.1.length < entry.1.length then some entry else some b
      | none => some entry) best
    (longest = none → entries = [] ∧ best = none) ∧
      ∀ e, longest = some e → e ∈ entries ∨ best = some e := by
  induction entries generalizing best with
  | nil => exact ⟨fun none_ => ⟨rfl, none_⟩, fun e is => .inr is⟩
  | cons entry entries ih =>
      obtain ⟨nothing, something⟩ := ih (match best with
        | some b => if b.1.length < entry.1.length then some entry else some b
        | none => some entry)
      refine ⟨fun none_ => ?_, fun e is => ?_⟩
      · have := (nothing none_).2
        split at this
        · split at this <;> cases this
        · cases this
      · rcases something e is with later | here
        · exact .inl (List.mem_cons_of_mem _ later)
        · split at here
          · split at here
            · cases here
              exact .inl List.mem_cons_self
            · exact .inr here
          · cases here
            exact .inl List.mem_cons_self

theorem of_entryAt? (found : entryAt? v before t = some e) :
    e ∈ v ∧ isBoundary before t.head? = true ∧ beginsWithWord e.1 t = true := by
  rw [entryAt?] at found
  split at found
  · rename_i boundary
    rcases (longest_spec _ none).2 e found with member | ⟨⟨⟩⟩
    obtain ⟨known, begins⟩ := List.mem_filter.mp member
    exact ⟨known, boundary, begins⟩
  · cases found

/-- Where there is no entry, no word of the vocabulary occurs. -/
theorem not_begins_of_entryAt? (none_ : entryAt? v before t = none) (member : e ∈ v)
    (boundary : isBoundary before t.head? = true) : beginsWithWord e.1 t = false := by
  rw [entryAt?, if_pos boundary] at none_
  have nothing := ((longest_spec _ none).1 none_).1
  rw [List.filter_eq_nil_iff] at nothing
  exact Bool.eq_false_iff.mpr (nothing e member)

theorem entryAt?_congr {before' : Option Char} {t' : Text}
    (boundary : isBoundary before t.head? = isBoundary before' t'.head?)
    (begins : ∀ e ∈ v, beginsWithWord e.1 t = beginsWithWord e.1 t') :
    entryAt? v before t = entryAt? v before' t' := by
  rw [entryAt?, entryAt?, boundary, List.filter_congr begins]

/-! ## A pass over a text -/

/-- **What a pass gives**: characters where no word begins, and what is written for the words. -/
inductive Substituted (v : Vocabulary) : Option Char → Text → Text → Prop
  | nil {before : Option Char} : Substituted v before [] []
  | kept {before : Option Char} {c : Char} {t r : Text} (none_ : entryAt? v before (c :: t) = none)
      (rest : Substituted v (some c) t r) : Substituted v before (c :: t) (c :: r)
  | replaced {before : Option Char} {word new t r : Text} (member : (word, new) ∈ v)
      (left : isBoundary before word.head? = true) (right : isBoundary word.getLast? t.head? = true)
      (rest : Substituted v word.getLast? t r) : Substituted v before (word ++ t) (new ++ r)

theorem substituted (solid : ∀ e ∈ v, e.1 ≠ []) (before : Option Char) (t : Text) :
    Substituted v before t (substituteFrom v before t) := by
  induction before, t using substituteFrom.induct v with
  | case1 before =>
      rw [substituteFrom]
      exact .nil
  | case2 before c rest word new found ih =>
      obtain ⟨member, left, begins⟩ := of_entryAt? found
      obtain ⟨back, whole, right⟩ := beginsWithWord_iff.mp begins
      cases word with
      | nil => exact absurd rfl (solid _ member)
      | cons d word =>
          rw [List.cons_append, List.cons.injEq] at whole
          obtain ⟨rfl, rfl⟩ := whole
          rw [substituteFrom, found]
          simp only [List.length_cons, Nat.add_sub_cancel, List.drop_left] at ih ⊢
          exact .replaced member left right ih
  | case3 before c rest none_ ih =>
      rw [substituteFrom, none_]
      exact .kept none_ ih

theorem Substituted.eq_of_not_occurs (pass : Substituted v before t r)
    (absent : ∀ e ∈ v, ¬Occurs before e.1 t) : r = t := by
  induction pass with
  | nil => rfl
  | kept none_ rest ih =>
      rw [ih fun e member occurs => absent e member (occurs_cons_iff.mpr (.inr occurs))]
  | @replaced before word new t r member left right rest ih =>
      exact absurd ⟨[], t, rfl, left, right⟩ (absent _ member)

/-- Where no word of the vocabulary occurs, everything stays. -/
theorem substitute_of_not_occurs (solid : ∀ e ∈ v, e.1 ≠ [])
    (absent : ∀ e ∈ v, ¬Occurs none e.1 t) : substitute v t = t :=
  (substituted solid none t).eq_of_not_occurs absent

/-! ## White space -/

/-- A word does not reach beyond white space. -/
theorem beginsWithWord_append_cons (unbroken : Unbroken word) (blank : isBlankChar c = true)
    (s t : Text) : beginsWithWord word (s ++ c :: t) = beginsWithWord word s := by
  have ends : ∀ x : Option Char, isBoundary x (some c) = isBoundary x none := fun x =>
    isBoundary_congr rfl (isWordChar_of_isBlankChar blank)
  rw [Bool.eq_iff_iff, beginsWithWord_iff, beginsWithWord_iff]
  constructor
  · rintro ⟨back, whole, right⟩
    rcases List.append_eq_append_iff.mp whole with ⟨more, rfl, behind⟩ | ⟨more, rfl, rfl⟩
    · cases more with
      | nil =>
          rw [List.nil_append] at behind
          rw [← behind, List.head?_cons, ends] at right
          exact ⟨[], by simp, by simpa using right⟩
      | cons d more =>
          rw [List.cons_append, List.cons.injEq] at behind
          have solid := unbroken d (by simp)
          rw [← behind.1, blank] at solid
          cases solid
    · refine ⟨more, rfl, ?_⟩
      cases more with
      | nil => rwa [List.nil_append, List.head?_cons, ends] at right
      | cons d more => exact right
  · rintro ⟨back, rfl, right⟩
    refine ⟨back ++ c :: t, by simp, ?_⟩
    cases back with
    | nil => rwa [List.nil_append, List.head?_cons, ends]
    | cons d back => exact right

/-- Only whether a word can go on matters of what stands before. -/
theorem substituteFrom_congr {before' : Option Char}
    (same : before.any isWordChar = before'.any isWordChar) (t : Text) :
    substituteFrom v before t = substituteFrom v before' t := by
  cases t with
  | nil => rw [substituteFrom, substituteFrom]
  | cons c t =>
      rw [substituteFrom, substituteFrom,
        entryAt?_congr (isBoundary_congr same rfl) fun _ _ => rfl]

/-- **Substitution leaves white space where it is**, and starts anew behind it. -/
theorem keepsBlanks_substitute (solid : ∀ e ∈ v, e.1 ≠ [] ∧ Unbroken e.1) :
    KeepsBlanks (substitute v) where
  nil := by rw [substitute, substituteFrom]
  append_cons := fun s c t blank => by
    have outside : (some c).any isWordChar = Option.any isWordChar none :=
      isWordChar_of_isBlankChar blank
    have begins : ∀ s, ∀ e ∈ v, beginsWithWord e.1 (s ++ c :: t) = beginsWithWord e.1 s :=
      fun s e member => beginsWithWord_append_cons (solid e member).2 blank s t
    suffices all : ∀ before, substituteFrom v before (s ++ c :: t) =
        substituteFrom v before s ++ c :: substituteFrom v none t from all none
    intro before
    induction before, s using substituteFrom.induct v with
    | case1 before =>
        have none_ : entryAt? v before (c :: t) = none := by
          cases found : entryAt? v before (c :: t) with
          | none => rfl
          | some e =>
              obtain ⟨member, -, here⟩ := of_entryAt? found
              have nowhere := begins [] e member
              rw [List.nil_append, here, eq_comm, beginsWithWord_iff] at nowhere
              obtain ⟨back, empty, -⟩ := nowhere
              exact absurd (List.append_eq_nil_iff.mp empty.symm).1 (solid e member).1
        have kept : substituteFrom v before (c :: t) = c :: substituteFrom v (some c) t := by
          rw [substituteFrom, none_]
        have ends : substituteFrom v before [] = [] := by rw [substituteFrom]
        rw [List.nil_append, kept, ends, substituteFrom_congr outside]
        rfl
    | case2 before a rest word new found ih =>
        have same : entryAt? v before (a :: (rest ++ c :: t)) = entryAt? v before (a :: rest) :=
          entryAt?_congr rfl (begins (a :: rest))
        obtain ⟨-, -, here⟩ := of_entryAt? found
        obtain ⟨back, whole, -⟩ := beginsWithWord_iff.mp here
        have short : word.length - 1 ≤ rest.length := by
          have := congrArg List.length whole
          simp only [List.length_cons, List.length_append] at this
          omega
        rw [List.cons_append, substituteFrom, same, found, substituteFrom, found]
        dsimp only
        rw [List.drop_append_of_le_length short, ih, List.append_assoc]
    | case3 before a rest none_ ih =>
        have same : entryAt? v before (a :: (rest ++ c :: t)) = entryAt? v before (a :: rest) :=
          entryAt?_congr rfl (begins (a :: rest))
        rw [List.cons_append, substituteFrom, same, none_, substituteFrom, none_]
        dsimp only
        rw [ih, List.cons_append]

/-! ## Words that a pass does not bring about -/

/-- One of the texts begins with the other, up to a word boundary. -/
def Meets (s t : Text) : Prop := beginsWithWord s t = true ∨ beginsWithWord t s = true

instance (s t : Text) : Decidable (Meets s t) :=
  inferInstanceAs (Decidable (beginsWithWord s t = true ∨ beginsWithWord t s = true))

/-- Two texts that agree as far as they go meet, if both end at a boundary. -/
theorem meets_of_append (last : s.getLast?.any isWordChar = true)
    (last' : t.getLast?.any isWordChar = true) {behind behind' : Text}
    (nothing : behind.head?.any isWordChar = false)
    (right : isBoundary t.getLast? behind'.head? = true) (same : s ++ behind = t ++ behind') :
    Meets t s := by
  rcases List.append_eq_append_iff.mp same with ⟨more, longer, rest⟩ | ⟨more, longer, rest⟩
  · refine .inr (beginsWithWord_iff.mpr ⟨more, longer, ?_⟩)
    rw [isBoundary_of_left last, Bool.not_eq_true']
    cases more with
    | nil => rfl
    | cons d more => simpa [rest] using nothing
  · refine .inl (beginsWithWord_iff.mpr ⟨more, longer, ?_⟩)
    cases more with
    | nil =>
        rw [isBoundary_of_left last']
        rfl
    | cons d more => simpa [rest] using right

/-- What is left of a text from one of its word boundaries on. -/
structure IsRest (rest t front : Text) : Prop where
  whole : t = front ++ rest
  some_ : rest ≠ []
  boundary : front = [] ∨ isBoundary front.getLast? rest.head? = true

/-- **What is written does not make up the word**, not even with what stands beside it. -/
structure Apart (word new : Text) : Prop where
  ending : ∀ rest front, IsRest rest word front → ¬Meets rest new
  written : ∀ rest front, IsRest rest new front → ¬Meets word rest

/-- A vocabulary of words and texts that begin and end with word characters. -/
structure Vocabulary.Framed (v : Vocabulary) : Prop where
  words : ∀ e ∈ v, Naming.Framed e.1
  texts : ∀ e ∈ v, Naming.Framed e.2

namespace Substituted

/-- The text still begins with a word character if it did before, and only then. -/
theorem head (framed : v.Framed) (pass : Substituted v before t r) :
    r.head?.any isWordChar = t.head?.any isWordChar := by
  cases pass with
  | nil => rfl
  | kept => rfl
  | @replaced _ word new t r member left right rest =>
      rw [List.head?_append_of_ne_nil _ (framed.words _ member).ne_nil,
        List.head?_append_of_ne_nil _ (framed.texts _ member).ne_nil,
        (framed.words _ member).head, (framed.texts _ member).head]

/-- Behind what has been written there is no word character. -/
theorem behind (framed : v.Framed) (member : e ∈ v)
    (right : isBoundary e.1.getLast? t.head? = true) (rest : Substituted v e.1.getLast? t r) :
    r.head?.any isWordChar = false := by
  rw [rest.head framed]
  rwa [isBoundary_of_left (framed.words _ member).last, Bool.not_eq_true'] at right

/-- **A word that is there after the pass was there before**, at the same place. -/
theorem begins (framed : v.Framed) (framed' : Framed word) (apart : ∀ e ∈ v, Apart word e.2)
    (pass : Substituted v before t r) (here : beginsWithWord word r = true) :
    beginsWithWord word t = true := by
  rw [beginsWithWord_iff] at here ⊢
  obtain ⟨back, whole, right⟩ := here
  -- The characters of the word are followed one by one; `front` are those that have been passed.
  suffices all : ∀ s front before t back, word = front ++ s →
      (front = [] ∨ before = front.getLast?) → Substituted v before t (s ++ back) →
      isBoundary word.getLast? back.head? = true →
      ∃ back', t = s ++ back' ∧ isBoundary word.getLast? back'.head? = true from
    all word [] before t back rfl (.inl rfl) (whole ▸ pass) right
  intro s
  induction s with
  | nil =>
      intro front before t back _ _ pass right
      refine ⟨t, rfl, ?_⟩
      rw [← right]
      exact isBoundary_congr rfl (pass.head framed).symm
  | cons a s ih =>
      intro front before t back parts place pass right
      obtain ⟨result, is⟩ : ∃ result, result = a :: s ++ back := ⟨_, rfl⟩
      rw [← is] at pass
      cases pass with
      | nil => cases is
      | @kept _ c t r none_ rest =>
          rw [List.cons_append, List.cons.injEq] at is
          obtain ⟨rfl, rfl⟩ := is
          obtain ⟨back', rfl, right'⟩ := ih (front ++ [c]) (some c) t back (by simp [parts])
            (.inr (by simp)) rest right
          exact ⟨back', rfl, right'⟩
      | @replaced _ word' new t r member left right' rest =>
          have nothing : r.head?.any isWordChar = false := rest.behind framed member right'
          have last : (a :: s).getLast? = word.getLast? := by
            rw [parts, List.getLast?_append_of_ne_nil _ (List.cons_ne_nil a s)]
          have first : (a :: s).head? = new.head? := by
            have heads := congrArg List.head? is
            rwa [List.head?_append_of_ne_nil _ (framed.texts _ member).ne_nil,
              List.head?_append_of_ne_nil _ (List.cons_ne_nil a s), eq_comm] at heads
          have rest_ : IsRest (a :: s) word front := by
            refine ⟨parts, List.cons_ne_nil a s, place.imp_right fun same => ?_⟩
            rw [← same, ← left]
            refine isBoundary_congr rfl ?_
            rw [first, (framed.texts _ member).head, (framed.words _ member).head]
          exact absurd (meets_of_append (framed.texts _ member).last (last ▸ framed'.last) nothing
            (last ▸ right) is) ((apart _ member).ending _ _ rest_)

/-- **A pass does not bring about a word that is apart from all that is written**, and leaves none
that it replaces. -/
theorem not_occurs (framed : v.Framed) (framed' : Framed word) (apart : ∀ e ∈ v, Apart word e.2)
    (pass : Substituted v before t r)
    (gone : (∃ e ∈ v, e.1 = word) ∨ ¬Occurs before word t) : ¬Occurs before word r := by
  induction pass with
  | nil => exact not_occurs_nil framed'.ne_nil
  | @kept before c t r none_ rest ih =>
      rw [occurs_cons_iff, not_or]
      constructor
      · rintro ⟨left, here⟩
        have here' := (Substituted.kept none_ rest).begins framed framed' apart here
        rcases gone with ⟨e, member, rfl⟩ | absent
        · obtain ⟨back, whole, -⟩ := beginsWithWord_iff.mp here'
          have first : (c :: t).head? = e.1.head? := by
            rw [whole, List.head?_append_of_ne_nil _ framed'.ne_nil]
          have nowhere := not_begins_of_entryAt? none_ member (first ▸ left)
          rw [here'] at nowhere
          cases nowhere
        · exact absent (occurs_cons_iff.mpr (.inl ⟨left, here'⟩))
      · exact ih (gone.imp_right fun absent occurs => absent (occurs_cons_iff.mpr (.inr occurs)))
  | @replaced before word' new t r member left right rest ih =>
      have framedWord : Framed word' := framed.words _ member
      have framedNew : Framed new := framed.texts _ member
      have nothing : r.head?.any isWordChar = false := rest.behind framed member right
      rw [occurs_append_iff, not_or, getLast?_or_of_ne_nil framedNew.ne_nil]
      constructor
      · rintro ⟨rest', front, is, some_, left', here⟩
        obtain ⟨back, whole, right'⟩ := beginsWithWord_iff.mp here
        have last : rest'.getLast? = new.getLast? := by
          rw [is, List.getLast?_append_of_ne_nil _ some_]
        have first : rest'.head? = word.head? := by
          have heads := congrArg List.head? whole
          rwa [List.head?_append_of_ne_nil _ some_,
            List.head?_append_of_ne_nil _ framed'.ne_nil] at heads
        have rest_ : IsRest rest' new front := by
          refine ⟨is, some_, ?_⟩
          by_cases start : front = []
          · exact .inl start
          · rw [getLast?_or_of_ne_nil start, ← first] at left'
            exact .inr left'
        exact (apart _ member).written _ _ rest_
          (meets_of_append (last ▸ framedNew.last) framed'.last nothing right' whole)
      · intro occurs
        refine ih (gone.imp_right fun absent here => absent ?_)
          (occurs.congr (framedNew.last.trans framedWord.last.symm))
        rw [occurs_append_iff, getLast?_or_of_ne_nil framedWord.ne_nil]
        exact .inr here

/-- Every character was there before, or has been written for a word. -/
theorem mem_or (pass : Substituted v before t r) (member : c ∈ r) :
    c ∈ t ∨ ∃ e ∈ v, c ∈ e.2 := by
  induction pass with
  | nil => cases member
  | kept none_ rest ih =>
      rcases List.mem_cons.mp member with rfl | later
      · exact .inl List.mem_cons_self
      · exact (ih later).imp_left (List.mem_cons_of_mem _)
  | replaced known left right rest ih =>
      rcases List.mem_append.mp member with here | later
      · exact .inr ⟨_, known, here⟩
      · exact (ih later).imp_left (List.mem_append_right _)

end Substituted

/-! ## Words without boundaries inside -/

/-- Word characters only. -/
structure Simple (t : Text) : Prop where
  some_ : t ≠ []
  inside : ∀ c ∈ t, isWordChar c = true

namespace Simple

theorem framed (simple : Simple word) : Framed word where
  head := by
    cases first : word.head? with
    | none => exact absurd (List.head?_eq_none_iff.mp first) simple.some_
    | some c => exact simple.inside c (List.mem_of_head? first)
  last := by
    cases last : word.getLast? with
    | none => exact absurd (List.getLast?_eq_none_iff.mp last) simple.some_
    | some c => exact simple.inside c (List.mem_of_getLast? last)

/-- A beginning that ends at a boundary is the whole word. -/
theorem eq_of_begins (simple : Simple word) (some_ : s ≠ [])
    (begins : beginsWithWord s word = true) : s = word := by
  obtain ⟨back, whole, right⟩ := beginsWithWord_iff.mp begins
  cases back with
  | nil => rw [whole, List.append_nil]
  | cons d back =>
      have last : s.getLast?.any isWordChar = true := by
        rw [List.getLast?_eq_some_getLast some_]
        exact simple.inside _ (whole ▸ List.mem_append_left _ (List.getLast_mem some_))
      rw [isBoundary_of_left last, List.head?_cons, Option.any_some,
        simple.inside d (by simp [whole])] at right
      cases right

/-- A simple word is apart from every text in which it does not occur. -/
theorem apart (simple : Simple word) (framed : Framed new) (absent : ¬Occurs none word new) :
    Apart word new where
  ending := fun rest front left meets => by
    obtain ⟨whole, some_, boundary⟩ := left
    have inside : ∀ c ∈ front ++ rest, isWordChar c = true := whole ▸ simple.inside
    have start : front = [] := by
      by_contra more
      have first : rest.head?.any isWordChar = true := by
        rw [List.head?_eq_some_head some_]
        exact inside _ (List.mem_append_right _ (List.head_mem some_))
      have boundary := boundary.resolve_left more
      rw [isBoundary_of_right first, List.getLast?_eq_some_getLast more, Option.any_some,
        inside _ (List.mem_append_left _ (List.getLast_mem more))] at boundary
      cases boundary
    obtain rfl : word = rest := by rw [whole, start, List.nil_append]
    have head : isBoundary none word.head? = true := by
      rw [isBoundary_of_right simple.framed.head]
      rfl
    rcases meets with here | here
    · exact absent (occurs_of_begins head here)
    · obtain rfl := simple.eq_of_begins framed.ne_nil here
      exact absent (occurs_of_begins head here)
  written := fun rest front left meets => by
    have here : beginsWithWord word rest = true := by
      rcases meets with here | here
      · exact here
      · obtain rfl := simple.eq_of_begins left.some_ here
        exact here
    obtain ⟨back, whole, right⟩ := beginsWithWord_iff.mp here
    refine absent ⟨front, back, by rw [left.whole, whole, List.append_assoc], ?_, right⟩
    rcases left.boundary with rfl | boundary
    · rw [isBoundary_of_right simple.framed.head]
      rfl
    · rwa [whole, List.head?_append_of_ne_nil _ simple.some_,
        ← Option.or_none (o := front.getLast?)] at boundary

/-- Where everything but spaces belongs to words, a word that occurs is one of the pieces. -/
theorem mem_splitOn (simple : Simple word) (spaced : ∀ c ∈ t, isWordChar c = true ∨ c = ' ')
    (occurs : Occurs none word t) : word ∈ Text.splitOn ' ' t := by
  obtain ⟨front, back, whole, left, right⟩ := occurs
  have solid : ' ' ∉ word := fun member => by
    have := simple.inside _ member
    revert this
    decide
  rw [isBoundary_of_right simple.framed.head, Option.or_none, Bool.not_eq_true'] at left
  rw [isBoundary_of_left simple.framed.last, Bool.not_eq_true'] at right
  have tail : word ∈ Text.splitOn ' ' (word ++ back) := by
    cases back with
    | nil => rw [List.append_nil, Text.splitOn_of_not_mem solid, List.mem_singleton]
    | cons d back =>
        obtain rfl := (spaced d (by simp [whole])).resolve_left (by simpa using right)
        rw [Text.splitOn_append_cons solid]
        exact List.mem_cons_self
  rw [whole, List.append_assoc]
  induction front using List.reverseRecOn with
  | nil => exact tail
  | append_singleton front d _ =>
      obtain rfl := (spaced d (by simp [whole])).resolve_left (by simpa using left)
      rw [List.append_assoc, List.singleton_append, Text.splitOn_append]
      exact List.mem_append_right _ tail

end Simple

end CodeAtlas.Naming
