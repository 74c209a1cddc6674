/-
# Proofs.Text.Utf8 -- a text is read back from its bytes

Each of the four lengths holds the bits of the code point, leading ones first, so the first byte and
those that continue it give the character back (`next?_encodeChar`), and the bytes of a text give
the text (`decode?_encode`).  A text without carriage returns has no line end to be changed
(`withLineFeeds_of_not_mem`).

Reading never gives more characters than there are bytes (`length_decodeLossy_le`).
-/
import CodeAtlas.Text.Utf8

namespace CodeAtlas.Text

set_option autoImplicit false

theorem toNat_ofNat {n : Nat} (small : n < 256) : (UInt8.ofNat n).toNat = n := by
  simp [Nat.mod_eq_of_lt small]

theorem readContinuations_succ (count bits n : Nat) (bytes : Bytes) :
    readContinuations (count + 1) bits (continuation n :: bytes) =
      readContinuations count (64 * bits + n % 64) bytes := by
  have size : (continuation n).toNat = 128 + n % 64 := toNat_ofNat (by omega)
  have more : isContinuation (continuation n) = true := by
    rw [isContinuation, size, Bool.and_eq_true, decide_eq_true_eq, decide_eq_true_eq]
    omega
  have low : (128 + n % 64) % 64 = n % 64 := by omega
  rw [readContinuations, if_pos more, size, low]

/-- The character that a first byte and its continuations spell. -/
theorem next?_cons {b : UInt8} {count bits least n : Nat} {bytes rest : Bytes}
    (lead : readLead b = some (count, bits, least))
    (read : readContinuations count bits bytes = some (n, rest)) (enough : least ≤ n)
    (valid : n.isValidChar) : next? (b :: bytes) = some (Char.ofNat n, rest) := by
  rw [next?, lead, Option.bind_some]
  dsimp only
  rw [read, Option.bind_some]
  dsimp only
  rw [if_pos ⟨enough, valid⟩]

theorem readLead_of_lt {n : Nat} (small : n < 128) :
    readLead (UInt8.ofNat n) = some (0, n, 0) := by
  rw [readLead, toNat_ofNat (by omega), if_pos small]

theorem readLead_two {n : Nat} (small : n < 32) :
    readLead (UInt8.ofNat (192 + n)) = some (1, n, 0x80) := by
  have low : (192 + n) % 32 = n := by omega
  rw [readLead, toNat_ofNat (by omega), if_neg (by omega), if_neg (by omega), if_pos (by omega),
    low]

theorem readLead_three {n : Nat} (small : n < 16) :
    readLead (UInt8.ofNat (224 + n)) = some (2, n, 0x800) := by
  have low : (224 + n) % 16 = n := by omega
  rw [readLead, toNat_ofNat (by omega), if_neg (by omega), if_neg (by omega), if_neg (by omega),
    if_pos (by omega), low]

theorem readLead_four {n : Nat} (small : n < 8) :
    readLead (UInt8.ofNat (240 + n)) = some (3, n, 0x10000) := by
  have low : (240 + n) % 8 = n := by omega
  rw [readLead, toNat_ofNat (by omega), if_neg (by omega), if_neg (by omega), if_neg (by omega),
    if_neg (by omega), if_pos (by omega), low]

/-- **A character is read back from its bytes.** -/
theorem next?_encodeChar (c : Char) (bytes : Bytes) :
    next? (encodeChar c ++ bytes) = some (c, bytes) := by
  have number : Char.ofNat c.toNat = c := Char.ofNat_toNat c
  have valid : c.toNat.isValidChar := c.valid
  have bound : c.toNat < 0x110000 := valid.elim (fun low => by omega) And.right
  rw [encodeChar]
  split
  · rename_i small
    rw [List.singleton_append, next?_cons (readLead_of_lt small) rfl (Nat.zero_le _) valid, number]
  split
  · refine (next?_cons (readLead_two (by omega)) ?_ (by omega) valid).trans (by rw [number])
    rw [List.append_eq, List.cons_append, readContinuations_succ, readContinuations]
    congr 2
    omega
  split
  · refine (next?_cons (readLead_three (by omega)) ?_ (by omega) valid).trans (by rw [number])
    rw [List.append_eq, List.cons_append, List.cons_append, readContinuations_succ,
      readContinuations_succ, readContinuations]
    congr 2
    omega
  · refine (next?_cons (readLead_four (by omega)) ?_ (by omega) valid).trans (by rw [number])
    rw [List.append_eq, List.cons_append, List.cons_append, List.cons_append,
      readContinuations_succ, readContinuations_succ, readContinuations_succ, readContinuations]
    congr 2
    omega

/-- **A text is read back from its bytes.** -/
theorem decode?_encode (t : Text) : decode? (encode t) = some t := by
  induction t with
  | nil => rw [decode?.eq_def]; rfl
  | cons c t ih =>
      have first : next? (encode (c :: t)) = some (c, encode t) := next?_encodeChar c _
      rw [decode?.eq_def]
      split
      · rename_i found
        rw [first] at found
        cases found
        rw [ih]
        rfl
      · rename_i missing
        rw [first] at missing
        cases missing

theorem withLineFeeds_of_not_mem {t : Text} (absent : '\r' ∉ t) : withLineFeeds t = t := by
  induction t with
  | nil => rfl
  | cons c t ih =>
      rw [List.mem_cons, not_or] at absent
      rw [withLineFeeds, ih absent.2]
      · rintro rest rfl -
        exact absent.1 rfl
      · rintro rfl
        exact absent.1 rfl

/-! ## Lengths -/

theorem length_decodeLossy_le (bytes : Bytes) : (decodeLossy bytes).length ≤ bytes.length := by
  induction bytes using decodeLossy.induct with
  | case1 bytes c rest next ih =>
      have shorter := next?_length next
      rw [decodeLossy]
      split
      · rename_i c' rest' next'
        rw [next] at next'
        cases next'
        rw [List.length_cons]
        omega
      · rename_i none_
        rw [next] at none_
        cases none_
  | case2 next =>
      rw [decodeLossy]
      split
      · rename_i c' rest' next'
        rw [next] at next'
        cases next'
      · exact Nat.le_refl 0
  | case3 b rest next ih =>
      rw [decodeLossy]
      split
      · rename_i c' rest' next'
        rw [next] at next'
        cases next'
      · dsimp only
        rw [List.length_cons]
        omega

theorem length_withLineFeeds_le (t : Text) : (withLineFeeds t).length ≤ t.length := by
  induction t using withLineFeeds.induct with
  | case1 => simp [withLineFeeds]
  | case2 rest ih =>
      rw [withLineFeeds, List.length_cons, List.length_cons, List.length_cons]
      omega
  | case3 rest other ih =>
      rw [withLineFeeds, List.length_cons, List.length_cons]
      · omega
      · exact other
  | case4 c rest other other' ih =>
      rw [withLineFeeds, List.length_cons, List.length_cons]
      · omega
      · exact other
      · exact other'

end CodeAtlas.Text
