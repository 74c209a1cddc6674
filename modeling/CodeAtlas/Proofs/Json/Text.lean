/-
# Proofs.Json.Text -- a written text reads back

Every character has an escape that the reader undoes: a short one, itself, or its number in four
hexadecimal digits, in two halves when the number needs five.  `reads_escape` goes through the
cases, one character at a time, and `readString_flatMap` is the run over a whole text.
-/
import Mathlib.Algebra.Group.Nat.Defs
import Mathlib.Tactic.SplitIfs
import CodeAtlas.Json.Reader
import CodeAtlas.Json.Writer

namespace CodeAtlas.Json

set_option autoImplicit false

/-! ## Hexadecimal digits -/

theorem hexValue?_digitChar {d : Nat} (small : d < 16) :
    Text.hexValue? (Nat.digitChar d) = some d := by
  have all : ∀ d < 16, Text.hexValue? (Nat.digitChar d) = some d := by decide
  exact all d small

theorem length_hex (width n : Nat) : (Text.hex width n).length = width := by
  induction width generalizing n with
  | zero => rfl
  | succ width ih => rw [Text.hex, List.length_append, ih, List.length_singleton]

theorem mapM_hex {width n : Nat} (fits : n < 16 ^ width) :
    ((Text.hex width n).mapM Text.hexValue?).map (·.foldl (fun n d => 16 * n + d) 0) = some n := by
  induction width generalizing n with
  | zero =>
      obtain rfl : n = 0 := by simpa using fits
      rfl
  | succ width ih =>
      have fits' : n / 16 < 16 ^ width := by
        rw [Nat.pow_succ] at fits
        omega
      obtain ⟨ds, read, value⟩ := Option.map_eq_some_iff.mp (ih fits')
      rw [Text.hex, List.mapM_append, read]
      simp only [Option.bind_eq_bind, Option.bind_some, List.mapM_cons, List.mapM_nil,
        hexValue?_digitChar (Nat.mod_lt n (by decide)), Option.pure_def, Option.map_some,
        List.foldl_append, value, List.foldl_cons, List.foldl_nil, Option.some.injEq]
      omega

theorem readHex?_hex {width n : Nat} (fits : n < 16 ^ width) (rest : Text) :
    readHex? width (Text.hex width n ++ rest) = some (n, rest) := by
  have digits : (Text.hex width n ++ rest).take width = Text.hex width n :=
    List.take_left' (length_hex width n)
  obtain ⟨ds, read, value⟩ := Option.map_eq_some_iff.mp (mapM_hex fits)
  rw [readHex?, digits, length_hex, beq_self_eq_true, if_pos rfl, read, Option.map_some, value,
    List.drop_left' (length_hex width n)]

/-! ## Characters -/

theorem readUnit?_hex {n : Nat} (fits : n < 0x10000) (whole : n < 0xD800 ∨ 0xDFFF < n)
    (rest : Text) : readUnit? (Text.hex 4 n ++ rest) = some (Char.ofNat n, rest) := by
  rw [readUnit?, readHex?_hex (by omega), Option.map_some]
  have high : (decide (0xD800 ≤ n) && decide (n < 0xDC00)) = false := by
    rw [Bool.and_eq_false_iff, decide_eq_false_iff_not, decide_eq_false_iff_not]
    omega
  have low : (decide (0xDC00 ≤ n) && decide (n < 0xE000)) = false := by
    rw [Bool.and_eq_false_iff, decide_eq_false_iff_not, decide_eq_false_iff_not]
    omega
  simp only [high, low, Bool.false_eq_true, if_false]

/-- Two halves make one character. -/
theorem readUnit?_halves {n : Nat} (large : 0x10000 ≤ n) (fits : n < 0x110000) (rest : Text) :
    readUnit? (Text.hex 4 (0xD800 + (n - 0x10000) / 0x400) ++
        (unitEscape (0xDC00 + (n - 0x10000) % 0x400) ++ rest)) = some (Char.ofNat n, rest) := by
  have high : (decide (0xD800 ≤ 0xD800 + (n - 0x10000) / 0x400) &&
      decide (0xD800 + (n - 0x10000) / 0x400 < 0xDC00)) = true := by
    rw [Bool.and_eq_true, decide_eq_true_eq, decide_eq_true_eq]
    omega
  have low : (decide (0xDC00 ≤ 0xDC00 + (n - 0x10000) % 0x400) &&
      decide (0xDC00 + (n - 0x10000) % 0x400 < 0xE000)) = true := by
    rw [Bool.and_eq_true, decide_eq_true_eq, decide_eq_true_eq]
    omega
  have second : (Text.after? "\\u" (unitEscape (0xDC00 + (n - 0x10000) % 0x400) ++ rest)).bind
      (readHex? 4) = some (0xDC00 + (n - 0x10000) % 0x400, rest) := by
    have cut : Text.after? "\\u" (unitEscape (0xDC00 + (n - 0x10000) % 0x400) ++ rest) =
        some (Text.hex 4 (0xDC00 + (n - 0x10000) % 0x400) ++ rest) :=
      Text.after?_eq_some_iff.mpr rfl
    rw [cut, Option.bind_some]
    exact readHex?_hex (by omega) rest
  have whole : 0x10000 + (0xD800 + (n - 0x10000) / 0x400 - 0xD800) * 0x400 +
      (0xDC00 + (n - 0x10000) % 0x400 - 0xDC00) = n := by omega
  rw [readUnit?, readHex?_hex (by omega), Option.map_some]
  simp only [high, if_true, second, low, whole]

/-- The reading of one character in front of a text. -/
def Reads (c : Char) (escaped : Text) : Prop :=
  ∀ (fuel : Nat) (rest : Text), readStringBody (fuel + 1) (escaped ++ rest) =
    (readStringBody fuel rest).map fun (t, r) => (c :: t, r)

theorem reads_short {c d : Char} (short : shortEscape? d = some c) (other : d ≠ 'u') :
    Reads c ['\\', d] := by
  intro fuel rest
  change readStringBody (fuel + 1) ('\\' :: d :: rest) = _
  rw [readStringBody, if_neg (by simpa using other), short, Option.bind_some]

theorem reads_unit {c : Char} {escaped : Text}
    (unit : ∀ rest, readUnit? (escaped ++ rest) = some (c, rest)) :
    Reads c ('\\' :: 'u' :: escaped) := by
  intro fuel rest
  change readStringBody (fuel + 1) ('\\' :: 'u' :: (escaped ++ rest)) = _
  rw [readStringBody, if_pos (by rfl), unit, Option.bind_some]

theorem reads_self {c : Char} (quote : c ≠ '"') (slash : c ≠ '\\') (printed : 32 ≤ c.toNat) :
    Reads c [c] := by
  intro fuel rest
  have solid : (decide (c.toNat < 32) || c == '\\') = false := by
    simp only [Bool.or_eq_false_iff, decide_eq_false_iff_not, beq_eq_false_iff_ne]
    exact ⟨by omega, slash⟩
  change readStringBody (fuel + 1) (c :: rest) = _
  rw [readStringBody, solid, if_neg (by simp)]
  · exact quote
  · rintro d rest' rfl
    exact absurd rfl slash

/-- **The escape of a character reads as that character.** -/
theorem reads_escape (c : Char) : Reads c (escape c) := by
  have number : Char.ofNat c.toNat = c := Char.ofNat_toNat c
  have valid : c.toNat < 0xD800 ∨ 0xDFFF < c.toNat ∧ c.toNat < 0x110000 := c.valid
  rw [escape]
  split_ifs with quote slash feed return_ tab back form printed basic
  · rw [beq_iff_eq] at quote
    exact quote ▸ reads_short rfl (by decide)
  · rw [beq_iff_eq] at slash
    exact slash ▸ reads_short rfl (by decide)
  · rw [beq_iff_eq] at feed
    exact feed ▸ reads_short rfl (by decide)
  · rw [beq_iff_eq] at return_
    exact return_ ▸ reads_short rfl (by decide)
  · rw [beq_iff_eq] at tab
    exact tab ▸ reads_short rfl (by decide)
  · rw [beq_iff_eq] at back
    rw [← number, back]
    exact reads_short rfl (by decide)
  · rw [beq_iff_eq] at form
    rw [← number, form]
    exact reads_short rfl (by decide)
  · rw [Bool.and_eq_true, decide_eq_true_eq, decide_eq_true_eq] at printed
    exact reads_self (by simpa using quote) (by simpa using slash) printed.1
  · refine reads_unit fun rest => ?_
    rw [readUnit?_hex basic (valid.imp_right And.left), number]
  · have large : 0x10000 ≤ c.toNat := by omega
    refine reads_unit fun rest => ?_
    rw [List.append_eq, List.append_assoc, readUnit?_halves large (by omega), number]

/-! ## Texts -/

theorem readStringBody_flatMap (t rest : Text) {fuel : Nat} (enough : t.length < fuel) :
    readStringBody fuel (t.flatMap escape ++ '"' :: rest) = some (t, rest) := by
  induction t generalizing fuel with
  | nil =>
      obtain ⟨fuel, rfl⟩ := Nat.exists_eq_add_of_lt enough
      rfl
  | cons c t ih =>
      obtain ⟨fuel, rfl⟩ : ∃ n, fuel = n + 1 := ⟨fuel - 1, by omega⟩
      rw [List.flatMap_cons, List.append_assoc, reads_escape c, ih (by simpa using enough)]
      rfl

theorem length_le_flatMap (t : Text) : t.length ≤ (t.flatMap escape).length := by
  induction t with
  | nil => simp
  | cons c t ih =>
      have some_ : 0 < (escape c).length := by
        rw [List.length_pos_iff]
        intro empty
        have reads := reads_escape c 1 ['"']
        rw [empty] at reads
        simp [readStringBody] at reads
      rw [List.flatMap_cons, List.length_append, List.length_cons]
      omega

/-- **A written text reads back**, up to its closing quotation mark. -/
theorem readString_flatMap (t rest : Text) :
    readString (t.flatMap escape ++ '"' :: rest) = .ok (t, rest) := by
  have enough : t.length < (t.flatMap escape ++ '"' :: rest).length + 1 := by
    have := length_le_flatMap t
    rw [List.length_append]
    omega
  rw [readString, readStringBody_flatMap t rest enough]

theorem writeText_append (t rest : Text) :
    writeText t ++ rest = '"' :: (t.flatMap escape ++ '"' :: rest) := by
  simp [writeText]

end CodeAtlas.Json
