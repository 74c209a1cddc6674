/-
# Pattern.Notation -- the smallest parts of a pattern's text

Escapes, classes, quantifiers and the letters for flags are read from the text alone, whatever
stands before them.

The escapes are `\s \d \w` and their capitals, `\t \n \r \a \f \v \\`, and characters by their
number in octal or hexadecimal or by their name in braces (`\N`); any other character that is no
letter or digit of ASCII stands for itself.  A number between `U+D800` and `U+DFFF` is that of no
character: it can be written, alone or in a class, and matches nothing.  Which names there are is
left to whoever reads (`Names`).

A quantifier is `* + ? {m} {m,} {,n}` or `{m,n}`, followed by `?` when it is lazy and by `+` when it
keeps what it has matched.  A brace that opens no well-formed quantifier stands for itself.  A count
from `countLimit` on is refused as `tooLarge`, one that is too long to be read as `tooManyDigits`;
but a text that ends in a single backslash right behind the closing brace is refused first.
-/
import CodeAtlas.Json.Reader
import CodeAtlas.Pattern.Basic

namespace CodeAtlas.Pattern

set_option autoImplicit false

/-- Why a text is no pattern. -/
inductive ReadFault where
  | invalid
  | tooLarge
  | tooManyDigits (count : Nat)
  /-- The flags for the whole pattern exclude each other. -/
  | clashing
  /-- Nested deeper than whoever reads can go. -/
  | tooDeep
  deriving DecidableEq, Repr

abbrev Reader (α : Type) := Text → Except ReadFault (α × Text)

/-- The characters by their names. -/
abbrev Names := Text → Option Char

/-- Counts from here on are too large. -/
def countLimit : Nat := 4294967295

/-- A text up to a character that ends it. -/
def readUntil (stop : Char) : Reader Text := fun t =>
  match Text.cut stop t with
  | (front, some rest) => .ok (front, rest)
  | (_, none) => .error .invalid

/-! ## Escapes -/

def categoryEscape? : Char → Option (Category × Bool)
  | 's' => some (.blank, false)
  | 'S' => some (.blank, true)
  | 'd' => some (.digit, false)
  | 'D' => some (.digit, true)
  | 'w' => some (.word, false)
  | 'W' => some (.word, true)
  | _ => none

def controlEscape? : Char → Option Char
  | 'a' => some (Char.ofNat 7)
  | 'f' => some (Char.ofNat 12)
  | 'n' => some '\n'
  | 'r' => some '\r'
  | 't' => some '\t'
  | 'v' => some (Char.ofNat 11)
  | '\\' => some '\\'
  | _ => none

/-- The number of a character in so many hexadecimal digits. -/
def readHexCode (width : Nat) : Reader Nat := fun t =>
  match Json.readHex? width t with
  | some (n, rest) => if n < 0x110000 then .ok (n, rest) else .error .invalid
  | none => .error .invalid

def isOctal (c : Char) : Bool := '0'.toNat ≤ c.toNat && c.toNat ≤ '7'.toNat

/-- The number that octal digits spell, if it is that of a character of one byte. -/
def readOctal (digits rest : Text) : Except ReadFault (Nat × Text) :=
  let n := digits.foldl (fun n d => 8 * n + (d.toNat - 48)) 0
  if n < 256 then .ok (n, rest) else .error .invalid

/-- The number of a character that is given by its name in braces. -/
def readNamed (names : Names) : Reader Nat
  | '\x7b' :: t => do
      let (name, rest) ← readUntil '\x7d' t
      match names name with
      | some c => return (c.toNat, rest)
      | none => throw .invalid
  | _ => .error .invalid

/-- The number of a character that is written with a backslash; the text starts after it. -/
def readCharEscape (names : Names) : Reader Nat
  | [] => .error .invalid
  | c :: rest =>
      if c == 'x' then readHexCode 2 rest
      else if c == 'u' then readHexCode 4 rest
      else if c == 'U' then readHexCode 8 rest
      else if c == 'N' then readNamed names rest
      else if c == '0' then
        let digits := (rest.take 2).takeWhile isOctal
        readOctal digits (rest.drop digits.length)
      else
        match controlEscape? c with
        | some d => .ok (d.toNat, rest)
        | none => if c.isAlphanum then .error .invalid else .ok (c.toNat, rest)

/-! ## Classes -/

/-- The characters from one number to another, surrogates left out. -/
def codeRange (first last : Nat) : List ClassItem :=
  let isSurrogate := fun n => 0xD800 ≤ n && n < 0xE000
  let first' := if isSurrogate first then 0xE000 else first
  let last' := if isSurrogate last then 0xD7FF else last
  if first' ≤ last' then [.range (Char.ofNat first') (Char.ofNat last')] else []

/-- The character of a number. -/
def literal (code : Nat) : Expr :=
  if code.isValidChar then .char (Char.ofNat code) else .oneOf false []

/-- One end of a range, or a category, within a class. -/
def readClassAtom (names : Names) : Reader (Nat ⊕ (Category × Bool))
  | [] => .error .invalid
  | '\\' :: c :: rest =>
      match categoryEscape? c with
      | some k => .ok (.inr k, rest)
      | none =>
          if c == 'b' then .ok (.inl 8, rest)
          else if isOctal c then
            let digits := ((c :: rest).take 3).takeWhile isOctal
            (readOctal digits ((c :: rest).drop digits.length)).map fun (n, r) => (.inl n, r)
          else (readCharEscape names (c :: rest)).map fun (n, r) => (.inl n, r)
  | '\\' :: [] => .error .invalid
  | c :: rest => .ok (.inl c.toNat, rest)

def atomItems : Nat ⊕ (Category × Bool) → List ClassItem
  | .inl n => codeRange n n
  | .inr (k, negated) => [.category k negated]

/-- The items of a class up to its closing bracket; a bracket in first place stands for
itself. -/
def readClassItems (names : Names) : Nat → Bool → Reader (List ClassItem)
  | 0, _, _ => .error .invalid
  | fuel + 1, first, t => do
      match t with
      | [] => throw .invalid
      | ']' :: rest =>
          if !first then return ([], rest)
      | _ => pure ()
      let (low, rest) ← readClassAtom names t
      match rest with
      | '-' :: ']' :: r => return (atomItems low ++ [.range '-' '-'], r)
      | '-' :: r =>
          let (high, r') ← readClassAtom names r
          match low, high with
          | .inl a, .inl b =>
              if b < a then throw .invalid
              let (items, r'') ← readClassItems names fuel false r'
              return (codeRange a b ++ items, r'')
          | _, _ => throw .invalid
      | r =>
          let (items, r') ← readClassItems names fuel false r
          return (atomItems low ++ items, r')

/-- A class, its opening bracket excluded; each item counts once. -/
def readClass (names : Names) : Reader Expr := fun t =>
  let negated := t.head? == some '^'
  let body := if negated then t.drop 1 else t
  (readClassItems names (body.length + 1) true body).map fun (items, r) =>
    (.oneOf negated (Text.distinct items), r)

/-! ## Quantifiers -/

structure Quantifier where
  least : Nat
  most : Option Nat
  deriving DecidableEq, Repr

/-- A count of a quantifier; no digits are no count. -/
def readCount (digits : Text) : Except ReadFault (Option Nat) :=
  if digits.isEmpty then .ok none
  else if Number.maxDigits < digits.length then .error (.tooManyDigits digits.length)
  else if countLimit ≤ Number.digitsValue digits then .error .tooLarge
  else .ok (some (Number.digitsValue digits))

/-- The quantifier in braces at the front of the text, if the braces hold one. -/
def readBraces (t : Text) : Except ReadFault (Option (Quantifier × Text)) :=
  let low := t.takeWhile Char.isDigit
  let afterLow := t.drop low.length
  let (high, afterHigh) :=
    match afterLow with
    | ',' :: r => (r.takeWhile Char.isDigit, r.dropWhile Char.isDigit)
    | r => (low, r)
  match t, afterHigh with
  | '\x7d' :: _, _ => .ok none
  | _, ['\x7d', '\\'] => .error .invalid
  | _, '\x7d' :: rest => do
      let least := (← readCount low).getD 0
      let most ← readCount high
      if most.any (· < least) then throw .invalid
      return some (⟨least, most⟩, rest)
  | _, _ => .ok none

def readQuantifier : Text → Except ReadFault (Option (Quantifier × Text))
  | '*' :: rest => .ok (some (⟨0, none⟩, rest))
  | '+' :: rest => .ok (some (⟨1, none⟩, rest))
  | '?' :: rest => .ok (some (⟨0, some 1⟩, rest))
  | '\x7b' :: rest => readBraces rest
  | _ => .ok none

/-- How a quantifier goes about its rounds. -/
inductive Manner where
  | greedy
  | lazily
  | keeping

/-- The manner of a quantifier, by what follows it. -/
def readManner : Text → Manner × Text
  | '?' :: rest => (.lazily, rest)
  | '+' :: rest => (.keeping, rest)
  | t => (.greedy, t)

def quantified (q : Quantifier) (atom : Expr) : Manner → Expr
  | .greedy => .rounds q.least q.most true atom
  | .lazily => .rounds q.least q.most false atom
  | .keeping => .kept (.rounds q.least q.most true atom)

/-! ## Flags -/

/-- The letters for flags; `x` only tells how the text is read, and `t` forbids quantifiers. -/
def flagLetters : Text := "imsxatu"

/-- The flag that a letter sets or clears. -/
def modeOf? : Char → Option (Mode × Bool)
  | 'i' => some (.ignoreCase, true)
  | 'm' => some (.multiLine, true)
  | 's' => some (.dotAll, true)
  | 'a' => some (.ascii, true)
  | 'u' => some (.ascii, false)
  | _ => none

/-- An expression with the flags of some letters set or cleared. -/
def withFlags (letters : Text) (on : Bool) (e : Expr) : Expr :=
  letters.foldl
    (fun e letter => (modeOf? letter).elim e fun (mode, set) => .under mode (set == on) e) e

/-- What is said about flags in front of a group: letters that are set for the whole pattern, or
that are set and cleared for the group. -/
inductive FlagGroup where
  | whole (on : Text)
  | part (on off : Text)

/-- Flags up to what ends them.  Only `i`, `m`, `s` and `x` can be cleared, and none is set and
cleared; `a` and `u` exclude each other, and `t` is for the whole pattern only. -/
def readFlagGroup : Reader FlagGroup := fun t =>
  let on := t.takeWhile flagLetters.contains
  let clash := on.contains 'a' && on.contains 'u'
  match t.drop on.length with
  | ')' :: rest => if on.isEmpty || clash then .error .invalid else .ok (.whole on, rest)
  | ':' :: rest => if clash || on.contains 't' then .error .invalid else .ok (.part on [], rest)
  | '-' :: t' =>
      let off := t'.takeWhile fun c => "imsx".toList.contains c && !on.contains c
      match t'.drop off.length with
      | ':' :: rest =>
          if off.isEmpty || clash || on.contains 't' then .error .invalid
          else .ok (.part on off, rest)
      | _ => .error .invalid
  | _ => .error .invalid

/-! ## What stands for nothing -/

/-- What is left of a comment from the character on that ends it; a backslash takes the next
character with it. -/
def dropComment (stop : Char) : Text → Text
  | '\\' :: _ :: t => dropComment stop t
  | c :: t => if c == stop || c == '\\' then c :: t else dropComment stop t
  | [] => []

/-- Skips comments and, where white space stands for nothing, white space and what is behind a
number sign. -/
def skipIdle (verbose : Bool) : Nat → Text → Except ReadFault Text
  | 0, t => .ok t
  | fuel + 1, t =>
      match t with
      | '(' :: '?' :: '#' :: rest =>
          match dropComment ')' rest with
          | ')' :: rest' => skipIdle verbose fuel rest'
          | _ => .error .invalid
      | c :: rest =>
          if verbose && isAsciiBlank c then skipIdle verbose fuel rest
          else if verbose && c == '#' then skipIdle verbose fuel (dropComment '\n' rest)
          else .ok t
      | [] => .ok []

end CodeAtlas.Pattern
