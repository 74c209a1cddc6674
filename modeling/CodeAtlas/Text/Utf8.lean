/-
# Text.Utf8 -- text as bytes

A code point takes one to four bytes: the first tells how many follow and holds the leading bits,
each of the others holds six more.  A sequence of bytes stands for a code point only if it is the
shortest one for it and the code point is no surrogate (`next?`).

`decode?` reads bytes that are text throughout; `decodeLossy` leaves out every byte that does not
belong to a character.  Dropping one byte at a time is enough for that, because a byte that
continues a character never begins one.

A text file may end its lines in three ways; `withLineFeeds` makes one of them.
-/
import CodeAtlas.Text.Basic

namespace CodeAtlas

set_option autoImplicit false

abbrev Bytes := List UInt8

namespace Text

/-! ## Writing -/

/-- The byte that holds the lowest six bits of `n` behind a first byte. -/
def continuation (n : Nat) : UInt8 := UInt8.ofNat (128 + n % 64)

def encodeChar (c : Char) : Bytes :=
  let n := c.toNat
  if n < 0x80 then [UInt8.ofNat n]
  else if n < 0x800 then [UInt8.ofNat (192 + n / 64), continuation n]
  else if n < 0x10000 then
    [UInt8.ofNat (224 + n / 4096), continuation (n / 64), continuation n]
  else
    [UInt8.ofNat (240 + n / 262144), continuation (n / 4096), continuation (n / 64),
      continuation n]

def encode (t : Text) : Bytes := t.flatMap encodeChar

/-! ## Reading -/

def isContinuation (b : UInt8) : Bool := 128 ≤ b.toNat && b.toNat < 192

/-- `n` with the bits of the next `count` bytes behind it, and the bytes after them. -/
def readContinuations : Nat → Nat → Bytes → Option (Nat × Bytes)
  | 0, n, bytes => some (n, bytes)
  | _ + 1, _, [] => none
  | count + 1, n, b :: bytes =>
      if isContinuation b then readContinuations count (64 * n + b.toNat % 64) bytes else none

/-- What a first byte says: how many bytes follow, the leading bits, and the least code point
that needs so many bytes. -/
def readLead (b : UInt8) : Option (Nat × Nat × Nat) :=
  let n := b.toNat
  if n < 128 then some (0, n, 0)
  else if n < 192 then none
  else if n < 224 then some (1, n % 32, 0x80)
  else if n < 240 then some (2, n % 16, 0x800)
  else if n < 248 then some (3, n % 8, 0x10000)
  else none

/-- The character in front, and the bytes after it. -/
def next? : Bytes → Option (Char × Bytes)
  | [] => none
  | b :: bytes =>
      (readLead b).bind fun (count, bits, least) =>
        (readContinuations count bits bytes).bind fun (n, rest) =>
          if least ≤ n ∧ n.isValidChar then some (Char.ofNat n, rest) else none

theorem readContinuations_length {count n m : Nat} {bytes rest : Bytes}
    (h : readContinuations count n bytes = some (m, rest)) : rest.length ≤ bytes.length := by
  induction count generalizing n bytes with
  | zero =>
      simp only [readContinuations, Option.some.injEq, Prod.mk.injEq] at h
      simp [h.2]
  | succ count ih =>
      cases bytes with
      | nil => simp [readContinuations] at h
      | cons b bytes =>
          rw [readContinuations] at h
          split at h
          · have := ih h
            simp only [List.length_cons]
            omega
          · simp at h

theorem next?_length {bytes rest : Bytes} {c : Char} (h : next? bytes = some (c, rest)) :
    rest.length < bytes.length := by
  cases bytes with
  | nil => simp [next?] at h
  | cons b bytes =>
      simp only [next?, Option.bind_eq_some_iff] at h
      obtain ⟨_, _, ⟨n, rest'⟩, h₁, h₂⟩ := h
      have := readContinuations_length h₁
      split at h₂
      · simp only [Option.some.injEq, Prod.mk.injEq] at h₂
        obtain ⟨_, rfl⟩ := h₂
        simp only [List.length_cons]
        omega
      · simp at h₂

/-- The text that the bytes are, if they are text throughout. -/
def decode? (bytes : Bytes) : Option Text :=
  match _h : next? bytes with
  | some (c, rest) => (decode? rest).map (c :: ·)
  | none => if bytes.isEmpty then some [] else none
termination_by bytes.length
decreasing_by exact next?_length _h

/-- The characters in the bytes, everything else left out. -/
def decodeLossy (bytes : Bytes) : Text :=
  match _h : next? bytes with
  | some (c, rest) => c :: decodeLossy rest
  | none =>
      match bytes with
      | [] => []
      | _ :: rest => decodeLossy rest
termination_by bytes.length
decreasing_by
  · exact next?_length _h
  · simp

/-! ## Lines -/

/-- Every line end as a line feed. -/
def withLineFeeds : Text → Text
  | [] => []
  | '\r' :: '\n' :: rest => '\n' :: withLineFeeds rest
  | '\r' :: rest => '\n' :: withLineFeeds rest
  | c :: rest => c :: withLineFeeds rest

/-- Characters that end a line beside line feed and carriage return. -/
def isLineBreak (c : Char) : Bool :=
  let n := c.toNat
  (10 ≤ n && n ≤ 13) || (28 ≤ n && n ≤ 30) || n == 0x85 || n == 0x2028 || n == 0x2029

/-- The lines of a text, at every kind of line break; a break at the end begins no line. -/
def lines (t : Text) : List Text :=
  let pieces := (withLineFeeds t).foldr (fun c done =>
    if isLineBreak c then [] :: done
    else match done with
      | [] => [[c]]
      | piece :: pieces => (c :: piece) :: pieces) [[]]
  if pieces.getLast? == some [] then pieces.dropLast else pieces

end Text

end CodeAtlas
