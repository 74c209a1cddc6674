/-
# Pattern.Basic -- search patterns and what they match

A pattern is an expression over characters: literals, classes, anchors, groups, sequences,
alternatives, repetitions, what a group has matched before, parts that are matched once and for
all (`kept`), parts that only look ahead or back (`look`), a choice by whether a group has
matched, and parts with a flag of their own (`under`).  Matching is *prioritized*: the left
alternative is preferred to the right one, a greedy repetition prefers one more round to
stopping, a lazy one prefers to stop; the answer is the first in this order that lets the rest of
the pattern match too.

`Expr.run` is that order as a recursion on the expression: it gets the rest of the match as a
continuation and hands back the first success.  A repetition may match nothing in one round, but
it does not go on after such a round, so apart from the rounds it owes there are at most as many
rounds as the text has characters, plus one (`iterate`, whose fuel is that bound).

Case is ignored in a class of several items as in a single character, except for a character
beyond `U+FFFF`: in such a class it only stands for what becomes that character in lower case.
Where only ASCII counts, letters outside it have no case, except in a range that goes beyond
`U+FFFF`.

`search` tries every place of the text from left to right.  A group holds what it matched last.
-/
import CodeAtlas.Text.Case
import CodeAtlas.Text.Digit
import CodeAtlas.Text.WordChar

namespace CodeAtlas

set_option autoImplicit false

namespace Pattern

/-- How a pattern reads its text. -/
structure Flags where
  /-- Upper and lower case are the same. -/
  ignoreCase : Bool := false
  /-- `^` and `$` also match at line breaks. -/
  multiLine : Bool := false
  /-- `.` also matches a line break. -/
  dotAll : Bool := false
  /-- Letters, digits and white space are those of ASCII, and only its letters have a case. -/
  ascii : Bool := false
  deriving DecidableEq, Repr

/-- The flags that a part of a pattern can have for itself. -/
inductive Mode where
  | ignoreCase
  | multiLine
  | dotAll
  | ascii
  deriving DecidableEq, Repr

def Flags.set (f : Flags) (on : Bool) : Mode → Flags
  | .ignoreCase => { f with ignoreCase := on }
  | .multiLine => { f with multiLine := on }
  | .dotAll => { f with dotAll := on }
  | .ascii => { f with ascii := on }

/-! ## Expressions -/

/-- Named classes of characters. -/
inductive Category where
  | blank
  | digit
  | word
  deriving DecidableEq, Repr

/-- One item of a class in brackets. -/
inductive ClassItem where
  | range (first last : Char)
  | category (c : Category) (negated : Bool)
  deriving DecidableEq, Repr

/-- Conditions on a place that consume nothing. -/
inductive Anchor where
  | lineStart
  | lineEnd
  | textStart
  | textEnd
  | boundary
  | noBoundary
  deriving DecidableEq, Repr

inductive Expr where
  | empty
  | char (c : Char)
  | any
  | oneOf (negated : Bool) (items : List ClassItem)
  | anchor (a : Anchor)
  | group (index : Nat) (body : Expr)
  | seq (first second : Expr)
  | alt (left right : Expr)
  | rounds (least : Nat) (most : Option Nat) (greedy : Bool) (body : Expr)
  | again (index : Nat)
  | kept (body : Expr)
  | look (back : Nat) (negated : Bool) (body : Expr)
  | choice (index : Nat) (yes no : Expr)
  | under (mode : Mode) (on : Bool) (body : Expr)
  deriving DecidableEq, Repr

/-! ## Single characters -/

/-- White space of ASCII. -/
def isAsciiBlank (c : Char) : Bool := c == ' ' || (9 ≤ c.toNat && c.toNat ≤ 13)

def Category.holds (ascii : Bool) : Category → Char → Bool
  | .blank, c => if ascii then isAsciiBlank c else Text.isBlankChar c
  | .digit, c => if ascii then c.isDigit else Text.isDecimal c
  | .word, c => if ascii then c.isAlphanum || c == '_' else Text.isWordChar c

/-- Beyond the basic plane. -/
def isAstral (c : Char) : Bool := 0x10000 ≤ c.toNat

/-- The characters that count as `c` when case is ignored, up to `last` where that matters. -/
def variants (f : Flags) (last c : Char) : List Nat :=
  if !f.ignoreCase then []
  else if !f.ascii then Text.caseVariants c
  else
    let astral := match Text.upperImage c.toLower with
      | [d] => [d.toNat]
      | _ => []
    [c.toLower.toNat, c.toUpper.toNat] ++ if isAstral last then astral else []

def ClassItem.holds (f : Flags) (c : Char) : ClassItem → Bool
  | .range first last =>
      let within := fun n => first.toNat ≤ n && n ≤ last.toNat
      within c.toNat || (variants f last c).any within
  | .category k negated => k.holds f.ascii c != negated

/-- Is `c` one of the items? -/
def inClass (f : Flags) (items : List ClassItem) (c : Char) : Bool :=
  items.any fun item =>
    match item with
    | .range first last =>
        if f.ignoreCase && first == last && isAstral first && 1 < items.length then
          (if f.ascii then c else Text.simpleLower c) == first
        else item.holds f c
    | .category .. => item.holds f c

/-- Does a character that is read stand for the character `c` of a pattern? -/
def Flags.same (f : Flags) (c read : Char) : Bool :=
  read == c || (f.ignoreCase &&
    if f.ascii then c.toLower == read.toLower else Text.sameIgnoringCase c read)

/-- Does a character that is read stand for `c` where a group is to be matched again? -/
def Flags.sameAgain (f : Flags) (c read : Char) : Bool :=
  c == read || (f.ignoreCase &&
    if f.ascii then c.toLower == read.toLower else Text.simpleLower c == Text.simpleLower read)

/-! ## Places -/

/-- A place in a text: the text before it, the nearest character first, the text after it, and
how many characters of the text come before it. -/
structure Spot where
  past : Text := []
  rest : Text
  index : Nat := 0

namespace Spot

/-- Past the next character, if it satisfies `p`. -/
def step? (s : Spot) (p : Char → Bool) : Option Spot :=
  match s.rest with
  | [] => none
  | c :: rest => if p c then some ⟨c :: s.past, rest, s.index + 1⟩ else none

/-- So many characters back, if there are as many. -/
def back? : Nat → Spot → Option Spot
  | 0, s => some s
  | n + 1, ⟨c :: past, rest, index⟩ => back? n ⟨past, c :: rest, index - 1⟩
  | _ + 1, ⟨[], _, _⟩ => none

/-- Is there a word character on exactly one side? -/
def isBoundary (s : Spot) (ascii : Bool) : Bool :=
  s.past.head?.any (Category.word.holds ascii) != s.rest.head?.any (Category.word.holds ascii)

/-- The empty text has no place that is inside or outside of words. -/
def holds (s : Spot) (f : Flags) : Anchor → Bool
  | .textStart => s.past.isEmpty
  | .lineStart => s.past.isEmpty || (f.multiLine && s.past.head? == some '\n')
  | .textEnd => s.rest.isEmpty
  | .lineEnd =>
      s.rest.isEmpty || (s.rest.head? == some '\n' && (f.multiLine || s.rest.length == 1))
  | .boundary => s.isBoundary f.ascii
  | .noBoundary => !(s.past.isEmpty && s.rest.isEmpty) && !s.isBoundary f.ascii

end Spot

/-- What the groups matched, the latest first: the text from where the group began, and how many
characters of it belong to the group. -/
abbrev Captures := List (Nat × Text × Nat)

/-! ## Matching -/

/-- A matcher looks at a place, and passes the places it can reach on to the rest of the match
until that succeeds. -/
abbrev Matcher (β : Type) := Spot → Captures → (Spot → Captures → Option β) → Option β

/-- Rounds of `body`.  `last` is the index where the last voluntary round began: no further round
starts at the same place. -/
def iterate {β : Type} (body : Matcher β) (greedy : Bool) :
    Nat → Nat → Option Nat → Option Nat → Matcher β
  | 0, _, _, _ => fun s cs k => k s cs
  | fuel + 1, least, most, last => fun s cs k =>
      match least with
      | owed + 1 =>
          body s cs fun s' cs' =>
            iterate body greedy fuel owed (most.map (· - 1)) last s' cs' k
      | 0 =>
          let more := fun s' cs' =>
            iterate body greedy fuel 0 (most.map (· - 1)) (some s.index) s' cs' k
          if most == some 0 || last == some s.index then k s cs
          else if greedy then body s cs more <|> k s cs
          else k s cs <|> body s cs more

/-- One character that satisfies `p`. -/
def one {β : Type} (p : Char → Bool) : Matcher β := fun s cs k =>
  (s.step? p).bind fun s' => k s' cs

/-- The characters of a text, one after the other. -/
def literally {β : Type} (same : Char → Char → Bool) : Text → Matcher β
  | [] => fun s cs k => k s cs
  | c :: rest => fun s cs k => one (same c) s cs fun s' cs' => literally same rest s' cs' k

/-- The order in which an expression matches; `size` is the length of the whole text. -/
def Expr.run (f : Flags) (size : Nat) : Expr → (β : Type) → Matcher β
  | .empty, _ => fun s cs k => k s cs
  | .char c, _ => one (f.same c)
  | .any, _ => one fun d => f.dotAll || d != '\n'
  | .oneOf negated items, _ => one fun d => inClass f items d != negated
  | .anchor a, _ => fun s cs k => if s.holds f a then k s cs else none
  | .group index body, β => fun s cs k =>
      body.run f size β s cs fun s' cs' =>
        k s' ((index, s.rest, s'.index - s.index) :: cs')
  | .seq first second, β => fun s cs k =>
      first.run f size β s cs fun s' cs' => second.run f size β s' cs' k
  | .alt left right, β => fun s cs k => left.run f size β s cs k <|> right.run f size β s cs k
  | .rounds least most greedy body, β => fun s cs k =>
      iterate (body.run f size β) greedy (least + size + 2) least most none s cs k
  | .again index, _ => fun s cs k =>
      match cs.lookup index with
      | none => none
      | some (rest, length) => literally f.sameAgain (rest.take length) s cs k
  | .kept body, _ => fun s cs k =>
      (body.run f size (Spot × Captures) s cs fun s' cs' => some (s', cs')).bind fun r => k r.1 r.2
  | .look back negated body, _ => fun s cs k =>
      let seen := (s.back? back).bind fun s' =>
        body.run f size Captures s' cs fun _ cs' => some cs'
      if negated then if seen.isNone then k s cs else none else seen.bind fun cs' => k s cs'
  | .choice index yes no, β => fun s cs k =>
      if (cs.lookup index).isSome then yes.run f size β s cs k else no.run f size β s cs k
  | .under mode on body, β => body.run (f.set on mode) size β

/-- The captures of a match that begins at `s`. -/
def Expr.matchAt (e : Expr) (f : Flags) (size : Nat) (s : Spot) : Option Captures :=
  e.run f size Captures s [] fun _ cs => some cs

/-- The captures of the first match at or after a place, given by the text before it, the nearest
character first, and the text after it. -/
def Expr.searchFrom (e : Expr) (f : Flags) (size : Nat) (past : Text) (index : Nat) (t : Text) :
    Option Captures :=
  e.matchAt f size { past, rest := t, index } <|>
    match t with
    | [] => none
    | c :: rest => e.searchFrom f size (c :: past) (index + 1) rest

/-- The captures of the first match in `t`. -/
def Expr.search (e : Expr) (f : Flags) (t : Text) : Option Captures :=
  e.searchFrom f t.length [] 0 t

end Pattern

/-- A pattern that is ready for use: its text, its flags, its expression, and the number of its
groups. -/
structure Pattern where
  source : Text
  flags : Pattern.Flags
  expr : Pattern.Expr
  groups : Nat
  deriving DecidableEq, Repr

namespace Pattern

/-- The captures of the first match in `t`. -/
def search (p : Pattern) (t : Text) : Option Captures := p.expr.search p.flags t

/-- What a group matched; nothing if it took no part in the match. -/
def capture (cs : Captures) (index : Nat) : Text :=
  (cs.lookup index).elim [] fun (rest, length) => rest.take length

end Pattern

end CodeAtlas
