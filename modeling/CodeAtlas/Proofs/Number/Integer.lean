/-
# Proofs.Number.Integer -- a number that has been written reads back

A natural number is written with the ten digits of the basic alphabet only
(`isDigit_of_mem_showNat`), without a zero in front unless it is zero (`head?_showNat`), and the
digits spell the number (`digitsValue_showNat`).  A reader of whole numbers therefore gives it back,
as long as it has no more digits than are read at all (`readInt_showNat`); and a number that has been
read is not written with more (`length_showNat_of_readInt`).

A text that looks like digits need not be a number.  It is one exactly if all its characters are
decimal digits, they are not too many, and none of the four separators stands around them
(`exists_readInt_iff`).
-/
import CodeAtlas.Number.Integer
import CodeAtlas.Proofs.Text.Pieces

namespace CodeAtlas.Number

set_option autoImplicit false

/-! ## Digits -/

theorem range_of_isDigit {c : Char} (digit : c.isDigit = true) : 48 ≤ c.toNat ∧ c.toNat ≤ 57 := by
  simp only [Char.isDigit, Bool.and_eq_true, decide_eq_true_eq] at digit
  exact ⟨digit.1, digit.2⟩

theorem digitValue?_of_isDigit {c : Char} (digit : c.isDigit = true) :
    Text.digitValue? c = some (c.toNat - 48) := by
  have range := range_of_isDigit digit
  rw [Text.digitValue?, Text.decimalRanges, List.find?_cons_of_pos (by simpa using range)]
  simp only [Option.map_some, Option.some.injEq]
  omega

theorem isDecimal_of_isDigit {c : Char} (digit : c.isDigit = true) : Text.isDecimal c = true := by
  rw [Text.isDecimal, digitValue?_of_isDigit digit]
  rfl

/-- A digit is not white space. -/
theorem isBlankChar_of_isDigit {c : Char} (digit : c.isDigit = true) :
    Text.isBlankChar c = false := by
  have range := range_of_isDigit digit
  simp only [Text.isBlankChar, Text.inRanges, Text.blankRanges, List.any_cons, List.any_nil,
    Bool.or_eq_false_iff, Bool.and_eq_false_iff, decide_eq_false_iff_not, Bool.or_false]
  omega

theorem ne_of_isDigit {c : Char} (digit : c.isDigit = true) {d : Char} (other : d.isDigit = false) :
    c ≠ d := by
  rintro rfl
  rw [digit] at other
  cases other

/-- The digits of the basic alphabet spell what they say. -/
theorem digitsValue_eq {digits : Text} (all : ∀ c ∈ digits, c.isDigit = true) :
    digitsValue digits = Nat.ofDigitChars 10 digits 0 := by
  have run : ∀ start : Nat,
      digits.foldl (fun n c => 10 * n + (Text.digitValue? c).getD 0) start =
        Nat.ofDigitChars 10 digits start := by
    induction digits with
    | nil => exact fun start => Nat.ofDigitChars_nil.symm
    | cons c digits ih =>
        intro start
        rw [List.foldl_cons, digitValue?_of_isDigit (all c List.mem_cons_self),
          ih fun d later => all d (List.mem_cons_of_mem _ later), Nat.ofDigitChars_cons]
        rfl
  exact run 0

/-! ## Written numbers -/

theorem isDigit_of_mem_showNat {n : Nat} {c : Char} (member : c ∈ showNat n) : c.isDigit = true :=
  Nat.isDigit_of_mem_toDigits (by decide) (by decide) member

theorem showNat_ne_nil (n : Nat) : showNat n ≠ [] := Nat.toDigits_ne_nil

theorem digitsValue_showNat (n : Nat) : digitsValue (showNat n) = n := by
  rw [digitsValue_eq fun c => isDigit_of_mem_showNat, showNat, Nat.ofDigitChars_ten_toDigits]

theorem showNat_injective : Function.Injective showNat :=
  Function.LeftInverse.injective digitsValue_showNat

theorem not_mem_showNat {c : Char} (other : c.isDigit = false) (n : Nat) : c ∉ showNat n :=
  fun member => ne_of_isDigit (isDigit_of_mem_showNat member) other rfl

/-- Only zero is written with a zero in front. -/
theorem head?_showNat {n : Nat} (positive : 0 < n) : (showNat n).head? ≠ some '0' := by
  induction n using Nat.strongRecOn with
  | ind n ih =>
      rw [showNat, Nat.toDigits_eq_if (by decide)]
      split
      · rw [List.head?_cons, ne_eq, Option.some.injEq, Nat.digitChar_eq_zero]
        omega
      · rw [List.head?_append_of_ne_nil _ Nat.toDigits_ne_nil]
        exact ih (n / 10) (by omega) (by omega)

theorem trimmed_showNat (n : Nat) : Text.Trimmed (showNat n) :=
  ⟨fun _ first => isBlankChar_of_isDigit (isDigit_of_mem_showNat (List.mem_of_mem_head? first)),
    fun _ last => isBlankChar_of_isDigit (isDigit_of_mem_showNat (List.mem_of_getLast? last))⟩

/-! ## Reading -/

theorem takeSign_cons {c : Char} (minus : c ≠ '-') (plus : c ≠ '+') (t : Text) :
    takeSign (c :: t) = (false, c :: t) := by
  rw [takeSign]
  · rintro u ⟨⟩
    exact minus rfl
  · rintro u ⟨⟩
    exact plus rfl

theorem takeSign_of_isDigit {t : Text} (all : ∀ c ∈ t, c.isDigit = true) :
    takeSign t = (false, t) := by
  cases t with
  | nil => rfl
  | cons c t =>
      have digit := all c List.mem_cons_self
      exact takeSign_cons (ne_of_isDigit digit (by decide)) (ne_of_isDigit digit (by decide)) t

theorem dropWhile_isNumberBlank {t : Text} (all : ∀ c ∈ t, c.isDigit = true) :
    t.dropWhile isNumberBlank = t := by
  cases t with
  | nil => rfl
  | cons c t =>
      refine List.dropWhile_cons_of_neg ?_
      simp [isNumberBlank, isBlankChar_of_isDigit (all c List.mem_cons_self)]

/-- **A written number reads back**, unless it has too many digits. -/
theorem readInt_showNat {n : Nat} (short : (showNat n).length ≤ maxDigits) :
    readInt (showNat n) = .ok n := by
  have all : ∀ c ∈ showNat n, c.isDigit = true := fun c => isDigit_of_mem_showNat
  have inRun : ∀ c ∈ showNat n, (Text.isDecimal c || c == '_') = true := fun c member => by
    rw [isDecimal_of_isDigit (all c member), Bool.true_or]
  have run : (showNat n).takeWhile (fun c => Text.isDecimal c || c == '_') = showNat n :=
    List.takeWhile_eq_self_iff.mpr inRun
  have rest : (showNat n).dropWhile (fun c => Text.isDecimal c || c == '_') = [] :=
    List.dropWhile_eq_nil_iff.mpr inRun
  have plain : (showNat n).filter (· != '_') = showNat n :=
    List.filter_eq_self.mpr fun c member => by
      simpa using ne_of_isDigit (all c member) (d := '_') (by decide)
  have grouped : wellGrouped (showNat n) = true := by
    rw [wellGrouped, Text.splitOn_of_not_mem (not_mem_showNat (by decide) n)]
    simp [showNat_ne_nil]
  have size : ¬ maxDigits < (showNat n).length := by omega
  simp only [readInt, dropWhile_isNumberBlank all, takeSign_of_isDigit all, run, rest, plain,
    grouped, digitsValue_showNat, size, List.all_nil, Bool.not_true, Bool.false_eq_true, if_false]

theorem readInt?_showNat {n : Nat} (short : (showNat n).length ≤ maxDigits) :
    readInt? (showNat n) = some (n : Int) := by
  rw [readInt?, readInt_showNat short]
  rfl

/-- Digits of any script spell a number below the power of ten that belongs to their count. -/
theorem digitsValue_lt (digits : Text) : digitsValue digits < Nat.pow 10 digits.length := by
  have digit : ∀ c, (Text.digitValue? c).getD 0 < 10 := by
    intro c
    unfold Text.digitValue?
    cases Text.decimalRanges.find? fun r => r.1 ≤ c.toNat && c.toNat ≤ r.2 with
    | none => exact Nat.zero_lt_succ 9
    | some r => exact Nat.mod_lt _ (Nat.zero_lt_succ 9)
  have run : ∀ start : Nat,
      digits.foldl (fun n c => 10 * n + (Text.digitValue? c).getD 0) start <
        (start + 1) * 10 ^ digits.length := by
    induction digits with
    | nil => simp
    | cons c digits ih =>
        intro start
        have here := digit c
        rw [List.foldl_cons, List.length_cons, Nat.pow_succ']
        calc
          _ < (10 * start + (Text.digitValue? c).getD 0 + 1) * 10 ^ digits.length := ih _
          _ ≤ (start + 1) * 10 * 10 ^ digits.length := Nat.mul_le_mul_right _ (by omega)
          _ = (start + 1) * (10 * 10 ^ digits.length) := Nat.mul_assoc _ _ _
  have whole := run 0
  rwa [Nat.zero_add, Nat.one_mul] at whole

/-- A number that digits spell is not written with more digits. -/
theorem length_showNat_digitsValue {digits : Text} {limit : Nat} (some_ : 0 < limit)
    (few : digits.length ≤ limit) : (showNat (digitsValue digits)).length ≤ limit := by
  rw [showNat, Nat.length_toDigits_le_iff (by decide) some_]
  exact Nat.lt_of_lt_of_le (digitsValue_lt digits) (Nat.pow_le_pow_right (by decide) few)

theorem length_showNat_le {m n : Nat} (le : m ≤ n) : (showNat m).length ≤ (showNat n).length := by
  have some_ : 0 < (showNat n).length := List.length_pos_iff.mpr (showNat_ne_nil n)
  rw [showNat, Nat.length_toDigits_le_iff (by decide) some_]
  apply Nat.lt_of_le_of_lt le
  exact (Nat.length_toDigits_le_iff (by decide) some_).mp (Nat.le_refl _)

theorem length_showNat_of_readInt {t : Text} {n : Int} (read : readInt t = .ok n) :
    (showNat n.natAbs).length ≤ maxDigits := by
  unfold readInt at read
  dsimp only at read
  split at read
  · cases read
  · split at read
    · cases read
    · rename_i few
      split at read
      · cases read
      · have short := length_showNat_digitsValue (by decide) (Nat.not_lt.mp few)
        split at read <;> cases read <;> simpa using short

theorem takeSign_of_not_mem {t : Text} (absent : '-' ∉ t) : (takeSign t).1 = false := by
  cases t with
  | nil => rfl
  | cons c t =>
      have minus : c ≠ '-' := fun same => absent (same ▸ List.mem_cons_self)
      by_cases plus : c = '+'
      · rw [plus]
        rfl
      · rw [takeSign_cons minus plus]

/-- A number without a minus in its text is not negative. -/
theorem nonneg_of_readInt {t : Text} {n : Int} (absent : '-' ∉ t) (read : readInt t = .ok n) :
    0 ≤ n := by
  have unsigned : (takeSign (t.dropWhile isNumberBlank)).1 = false :=
    takeSign_of_not_mem fun member => absent ((List.dropWhile_sublist _).subset member)
  unfold readInt at read
  dsimp only at read
  split at read
  · cases read
  · split at read
    · cases read
    · split at read
      · cases read
      · rw [unsigned] at read
        cases read
        exact Int.natCast_nonneg _

/-! ## Texts that look like digits -/

section DigitLike

variable {t : Text}

/-- No white space looks like a digit. -/
theorem isDigitLike_of_isBlankChar {c : Char} (blank : Text.isBlankChar c = true) :
    Text.isDigitLike c = false := by
  have apart : ∀ r ∈ Text.decimalRanges ++ Text.ornamentalDigitRanges,
      ∀ b ∈ (9, 13) :: (28, 32) :: Text.blankRanges, r.2 < b.1 ∨ b.2 < r.1 := by decide
  have inBlank : ∃ b ∈ (9, 13) :: (28, 32) :: Text.blankRanges, b.1 ≤ c.toNat ∧ c.toNat ≤ b.2 := by
    simpa [Text.isBlankChar, Text.inRanges, or_assoc] using blank
  rw [Bool.eq_false_iff]
  intro digitLike
  have inDigits : ∃ r ∈ Text.decimalRanges ++ Text.ornamentalDigitRanges,
      r.1 ≤ c.toNat ∧ c.toNat ≤ r.2 := by
    simp only [Text.isDigitLike, Text.isDecimal, Text.digitValue?, Option.isSome_map,
      Bool.or_eq_true, List.find?_isSome, Text.inRanges, List.any_eq_true, Bool.and_eq_true,
      decide_eq_true_eq] at digitLike
    rcases digitLike with ⟨r, known, within⟩ | ⟨r, known, within⟩
    · exact ⟨r, List.mem_append_left _ known, within⟩
    · exact ⟨r, List.mem_append_right _ known, within⟩
  obtain ⟨b, known, within⟩ := inBlank
  obtain ⟨r, known', within'⟩ := inDigits
  rcases apart r known' b known with less | less <;> omega

theorem isDigitLike_of_isDecimal {c : Char} (decimal : Text.isDecimal c = true) :
    Text.isDigitLike c = true := by
  rw [Text.isDigitLike, decimal, Bool.true_or]

theorem ne_of_isDigitLike {c d : Char} (digitLike : Text.isDigitLike c = true)
    (other : Text.isDigitLike d = false) : c ≠ d := by
  rintro rfl
  rw [digitLike] at other
  cases other

/-- What may stand in a run of digits. -/
abbrev inRun (c : Char) : Bool := Text.isDecimal c || c == '_'

theorem inRun_of_isBlankChar {c : Char} (blank : Text.isBlankChar c = true) : inRun c = false := by
  have other := isDigitLike_of_isBlankChar blank
  rw [Text.isDigitLike, Bool.or_eq_false_iff] at other
  rw [inRun, other.1, Bool.false_or, beq_eq_false_iff_ne]
  rintro rfl
  cases blank

theorem isNumberBlank_of_isDigitLike {c : Char} (digitLike : Text.isDigitLike c = true) :
    isNumberBlank c = false := by
  rw [Bool.eq_false_iff]
  intro blank
  rw [isNumberBlank, Bool.and_eq_true] at blank
  simp [isDigitLike_of_isBlankChar blank.1] at digitLike

/-- When a text without a sign is a number. -/
theorem exists_readInt_of_cons {c : Char} {u : Text}
    (begins : t.dropWhile isNumberBlank = c :: u) (minus : c ≠ '-') (plus : c ≠ '+') :
    (∃ n, readInt t = .ok n) ↔
      wellGrouped ((c :: u).takeWhile inRun) = true ∧
        (((c :: u).takeWhile inRun).filter (· != '_')).length ≤ maxDigits ∧
        ∀ d ∈ (c :: u).dropWhile inRun, isNumberBlank d = true := by
  have read : readInt t =
      if !wellGrouped ((c :: u).takeWhile inRun) then .error .notANumber
      else if maxDigits < (((c :: u).takeWhile inRun).filter (· != '_')).length then
        .error (.tooManyDigits (((c :: u).takeWhile inRun).filter (· != '_')).length)
      else if !((c :: u).dropWhile inRun).all isNumberBlank then .error .notANumber
      else .ok (digitsValue (((c :: u).takeWhile inRun).filter (· != '_'))) := by
    rw [readInt, begins, takeSign_cons minus plus]
    rfl
  rw [read]
  constructor
  · rintro ⟨n, ok⟩
    split at ok
    · cases ok
    · rename_i grouped
      split at ok
      · cases ok
      · split at ok
        · cases ok
        · rename_i few blank
          exact ⟨by simpa using grouped, by omega, by simpa using blank⟩
  · rintro ⟨grouped, few, blank⟩
    exact ⟨_, by rw [if_neg (by simp [grouped]), if_neg (by omega), if_neg (by simpa using blank)]⟩

section Around

variable {front digits back : Text}

/-- White space that may not stand around a number is not skipped. -/
theorem readInt_of_separator (blank : ∀ c ∈ front, Text.isBlankChar c = true)
    (separator : ¬ ∀ c ∈ front, isNumberBlank c = true) (t : Text) :
    ¬ ∃ n, readInt (front ++ t) = .ok n := by
  obtain ⟨c, rest, left⟩ : ∃ c rest, front.dropWhile isNumberBlank = c :: rest :=
    List.exists_cons_of_ne_nil fun none_ => separator (List.dropWhile_eq_nil_iff.mp none_)
  have blank' : Text.isBlankChar c = true :=
    blank c ((List.dropWhile_suffix _).mem (left ▸ List.mem_cons_self))
  have begins : (front ++ t).dropWhile isNumberBlank = c :: (rest ++ t) := by
    rw [List.dropWhile_append, left]
    rfl
  have sign : c ≠ '-' ∧ c ≠ '+' := by
    constructor <;> rintro rfl <;> cases blank'
  rw [exists_readInt_of_cons begins sign.1 sign.2,
    List.takeWhile_cons_of_neg (by simp [inRun_of_isBlankChar blank'])]
  rintro ⟨grouped, -⟩
  revert grouped
  decide

/-- A character that only looks like a digit ends the run and is not skipped behind it. -/
theorem readInt_of_ornamental (some_ : digits ≠ [])
    (digitLike : ∀ c ∈ digits, Text.isDigitLike c = true)
    (around : ∀ c ∈ front, isNumberBlank c = true) {d : Char} (member : d ∈ digits)
    (ornamental : Text.isDecimal d = false) : ¬ ∃ n, readInt (front ++ (digits ++ back)) = .ok n := by
  obtain ⟨c, rest, rfl⟩ := List.exists_cons_of_ne_nil some_
  have first := digitLike c List.mem_cons_self
  have begins : (front ++ (c :: rest ++ back)).dropWhile isNumberBlank = c :: (rest ++ back) := by
    rw [List.dropWhile_append_of_pos around, List.cons_append,
      List.dropWhile_cons_of_neg (by simp [isNumberBlank_of_isDigitLike first])]
  have stops : inRun d = false := by
    simp [inRun, ornamental, ne_of_isDigitLike (digitLike d member) (d := '_') (by decide)]
  have left : d ∈ (c :: (rest ++ back)).dropWhile inRun := by
    have whole : d ∈ c :: (rest ++ back) := List.mem_append_left back member
    rw [← List.takeWhile_append_dropWhile (p := inRun) (l := c :: (rest ++ back)),
      List.mem_append] at whole
    refine whole.resolve_left fun run => ?_
    rw [List.mem_takeWhile_imp run] at stops
    cases stops
  rw [exists_readInt_of_cons begins (ne_of_isDigitLike first (by decide))
    (ne_of_isDigitLike first (by decide))]
  rintro ⟨-, -, behind⟩
  have blank := behind d left
  rw [isNumberBlank_of_isDigitLike (digitLike d member)] at blank
  cases blank

/-- Decimal digits are read, unless they are too many or the wrong white space follows. -/
theorem exists_readInt_of_decimal (some_ : digits ≠ [])
    (decimal : ∀ c ∈ digits, Text.isDecimal c = true)
    (around : ∀ c ∈ front, isNumberBlank c = true)
    (blank : ∀ c ∈ back, Text.isBlankChar c = true) :
    (∃ n, readInt (front ++ (digits ++ back)) = .ok n) ↔
      digits.length ≤ maxDigits ∧ ∀ c ∈ back, isNumberBlank c = true := by
  obtain ⟨c, rest, rfl⟩ := List.exists_cons_of_ne_nil some_
  have first := isDigitLike_of_isDecimal (decimal c List.mem_cons_self)
  have begins : (front ++ (c :: rest ++ back)).dropWhile isNumberBlank = c :: (rest ++ back) := by
    rw [List.dropWhile_append_of_pos around, List.cons_append,
      List.dropWhile_cons_of_neg (by simp [isNumberBlank_of_isDigitLike first])]
  have all : ∀ d ∈ c :: rest, inRun d = true := fun d member => by
    rw [inRun, decimal d member, Bool.true_or]
  have stop : back.takeWhile inRun = [] ∧ back.dropWhile inRun = back := by
    cases back with
    | nil => exact ⟨rfl, rfl⟩
    | cons d back => simp [inRun_of_isBlankChar (blank d List.mem_cons_self)]
  have plain : '_' ∉ c :: rest := fun member => absurd (decimal '_' member) (by decide)
  have kept : (c :: rest).filter (· != '_') = c :: rest :=
    List.filter_eq_self.mpr fun d member => by
      simpa using fun same : d = '_' => plain (same ▸ member)
  have grouped : wellGrouped (c :: rest) = true := by
    rw [wellGrouped, Text.splitOn_of_not_mem plain]
    rfl
  rw [exists_readInt_of_cons begins (ne_of_isDigitLike first (by decide))
    (ne_of_isDigitLike first (by decide)), ← List.cons_append, List.takeWhile_append_of_pos all,
    List.dropWhile_append_of_pos all, stop.1, stop.2, List.append_nil, kept]
  exact and_iff_right grouped

end Around

/-- **A text that looks like digits is a number** exactly if all of it are decimal digits, they are
not too many, and what stands around it may stand around a number. -/
theorem exists_readInt_iff (digitLike : Text.isDigitLikeText (Text.trim t) = true) :
    (∃ n, readInt t = .ok n) ↔
      (∀ c ∈ Text.trim t, Text.isDecimal c = true) ∧ (Text.trim t).length ≤ maxDigits ∧
        ∀ c ∈ t, Text.isBlankChar c = true → isNumberBlank c = true := by
  obtain ⟨front, back, whole, blank, blank'⟩ := Text.exists_append_trim t
  generalize Text.trim t = digits at *
  subst whole
  simp only [Text.isDigitLikeText, Bool.and_eq_true, List.all_eq_true, Bool.not_eq_true',
    List.isEmpty_eq_false_iff] at digitLike
  obtain ⟨some_, digitLike⟩ := digitLike
  rw [List.append_assoc]
  by_cases around : ∀ c ∈ front, isNumberBlank c = true
  · by_cases decimal : ∀ c ∈ digits, Text.isDecimal c = true
    · rw [exists_readInt_of_decimal some_ decimal around blank']
      refine ⟨fun ⟨few, behind⟩ => ⟨decimal, few, fun c member blank_ => ?_⟩, fun ⟨_, few, all⟩ =>
        ⟨few, fun c member => all c (by simp [member]) (blank' c member)⟩⟩
      rw [List.mem_append, List.mem_append] at member
      rcases member with before | inside | after
      · exact around c before
      · have solid := isDigitLike_of_isBlankChar blank_
        rw [digitLike c inside] at solid
        cases solid
      · exact behind c after
    · obtain ⟨d, member, ornamental⟩ : ∃ d ∈ digits, Text.isDecimal d = false := by
        simpa using decimal
      exact iff_of_false (readInt_of_ornamental some_ digitLike around member ornamental)
        fun holds => decimal holds.1
  · refine iff_of_false (readInt_of_separator blank around _) fun holds => around fun c member => ?_
    exact holds.2.2 c (List.mem_append_left _ member) (blank c member)

end DigitLike

end CodeAtlas.Number
