/-
# Pattern.Reader -- patterns from their text

The usual notation: `|` between alternatives, `(...)` for groups, `[...]` for classes with ranges
and `^` in front for the rest, `.` `^` `$`, the anchors `\A \Z \b \B`, and the escapes and
quantifiers of `Pattern.Notation`.  Groups are numbered by their opening parentheses; `(?P<n>...)` also names
one, and `\1` or `(?P=n)` stand for what a group has matched.  Other parentheses have no number:
`(?:...)`, `(?>...)` for a part that is matched once and for all, `(?=...)` and `(?!...)` to look
ahead, `(?<=...)` and `(?<!...)` to look back, `(?(n)...|...)` for a choice by whether a group has
matched, and `(?i-s:...)` for a part with flags of its own.  Flags for the whole pattern stand in
front of everything, as in `(?im)`; with `x`, white space and comments behind `#` are skipped.
`(?#...)` is a comment everywhere.

A text is refused as `invalid` when a bracket or parenthesis is left open or closes nothing, when
a quantifier has nothing to repeat, follows an anchor or another quantifier, or runs backwards,
when a class range runs backwards, when a group is referred to that is not there or not complete,
when a part that looks back can be of different lengths or refers to a group of its own, and when
a letter is escaped that means nothing.  Flags for the whole pattern that exclude each other are
`clashing`.  How deep groups are nested is not limited here.
-/
import CodeAtlas.Pattern.Notation
import CodeAtlas.Text.Identifier

namespace CodeAtlas.Pattern

set_option autoImplicit false

/-! ## Widths -/

/-- The number of characters an expression matches, if it is the same for all matches; `known` are
the widths of the groups. -/
def Expr.width? (known : Nat → Option Nat) : Expr → Option Nat
  | .empty => some 0
  | .char _ => some 1
  | .any => some 1
  | .oneOf _ _ => some 1
  | .anchor _ => some 0
  | .look _ _ _ => some 0
  | .group _ body => body.width? known
  | .kept body => body.width? known
  | .under _ _ body => body.width? known
  | .again index => known index
  | .seq first second => do return (← first.width? known) + (← second.width? known)
  | .alt left right => do
      let n ← left.width? known
      if right.width? known == some n then return n else none
  | .choice _ yes no => do
      let n ← yes.width? known
      if no.width? known == some n then return n else none
  | .rounds least most _ body =>
      if most == some 0 then some 0
      else do
        let n ← body.width? known
        if n == 0 then return 0 else if most == some least then return least * n else none

def Expr.hasRounds : Expr → Bool
  | .rounds .. => true
  | .group _ body => body.hasRounds
  | .kept body => body.hasRounds
  | .look _ _ body => body.hasRounds
  | .under _ _ body => body.hasRounds
  | .seq first second => first.hasRounds || second.hasRounds
  | .alt left right => left.hasRounds || right.hasRounds
  | .choice _ yes no => yes.hasRounds || no.hasRounds
  | _ => false

/-! ## Keeping account -/

/-- How far a pattern has been read, and what has to be known of the part that has been. -/
structure Progress where
  /-- What is left of the text. -/
  rest : Text
  /-- The number of the next group. -/
  next : Nat := 1
  /-- The groups that are complete, with their widths. -/
  complete : List (Nat × Option Nat) := []
  /-- The groups that have a name. -/
  names : List (Text × Nat) := []
  /-- Inside a part that looks back, the number of its first group. -/
  behind : Option Nat := none
  /-- The greatest number of a group that a choice asks for. -/
  asked : Nat := 0
  /-- The letters of the flags for the whole pattern. -/
  letters : Text := []
  /-- A part that looks back is of different lengths, or too long. -/
  ragged : Bool := false

abbrev Reading (α : Type) := StateT Progress (Except ReadFault) α

namespace Reading

/-- Reads what only depends on the text. -/
def take {α : Type} (r : Reader α) : Reading α := fun p =>
  (r p.rest).map fun (a, rest) => (a, { p with rest })

/-- Goes on with this text. -/
def goOn (rest : Text) : Reading Unit := modify ({ · with rest })

def skip (verbose : Bool) : Reading Unit :=
  take fun t => (skipIdle verbose (t.length + 1) t).map ((), ·)

/-- One character that has to be there. -/
def expect (c : Char) : Reading Unit := do
  match (← get).rest with
  | d :: rest => if d == c then goOn rest else throw .invalid
  | [] => throw .invalid

/-- Is white space to be skipped, as the flags for the whole pattern have it? -/
def isVerbose : Reading Bool := return (← get).letters.contains 'x'

/-- There are fewer groups than this. -/
def groupLimit : Nat := 1073741823

/-- The number of a new group. -/
def enter (name? : Option Text) : Reading Nat := do
  let p ← get
  if groupLimit ≤ p.next then throw .invalid
  if name?.any fun name => (p.names.lookup name).isSome then throw .invalid
  set { p with next := p.next + 1, names := name?.toList.map (·, p.next) ++ p.names }
  return p.next

def width? (e : Expr) : Reading (Option Nat) := do
  let p ← get
  return e.width? fun n => (p.complete.lookup n).join

/-- A group is complete. -/
def leave (index : Nat) (body : Expr) : Reading Unit := do
  let width ← width? body
  modify fun p => { p with complete := (index, width) :: p.complete }

/-- May a part that looks back speak of this group? -/
def checkBehind (index : Nat) : Reading Unit := do
  let p ← get
  if p.behind.any fun first => (p.complete.lookup index).isNone || first ≤ index then
    throw .invalid

/-- What a group has matched; it has to be complete. -/
def again (index : Nat) : Reading Expr := do
  if ((← get).complete.lookup index).isNone then throw .invalid
  checkBehind index
  return .again index

/-- A name up to a character that ends it. -/
def name (stop : Char) : Reading Text := do
  let name ← take (readUntil stop)
  if Text.isIdentifier name then return name else throw .invalid

/-- The group of this name. -/
def named (name : Text) : Reading Nat := do
  match (← get).names.lookup name with
  | some index => return index
  | none => throw .invalid

/-- The group that a choice asks for, by its name or its number; that number may come later. -/
def asked : Reading Nat := do
  let text ← take (readUntil ')')
  let index ←
    if Text.isIdentifier text then named text
    else
      match Number.readInt text with
      | .ok n =>
          if n ≤ 0 || groupLimit ≤ n.toNat then throw .invalid
          modify fun p => { p with asked := max p.asked n.toNat }
          pure n.toNat
      | .error _ => throw .invalid
  checkBehind index
  return index

/-- A part that looks back. -/
def lookBack (negated : Bool) (body : Expr) : Reading Expr := do
  match ← width? body with
  | some n =>
      if n ≤ countLimit then return .look n negated body
      modify ({ · with ragged := true })
  | none => modify ({ · with ragged := true })
  return .look 0 negated body

/-- Digits after a backslash: a character in octal if there are three octal ones, else the number
of a group in one digit or two. -/
def digitEscape : Reading Expr := do
  let t := (← get).rest
  let octal := (t.take 3).takeWhile isOctal
  if octal.length == 3 then return literal (← take fun _ => readOctal octal (t.drop 3))
  let digits := (t.take 2).takeWhile Char.isDigit
  goOn (t.drop digits.length)
  again (Number.digitsValue digits)

/-- An anchor or an escape outside a class, and whether it can be repeated; the text starts after the
backslash. -/
def escape (names : Names) : Reading (Expr × Bool) := do
  match (← get).rest with
  | [] => throw .invalid
  | c :: rest =>
      let anchor := fun a => do
        goOn rest
        return (Expr.anchor a, false)
      if c == 'A' then anchor .textStart
      else if c == 'Z' then anchor .textEnd
      else if c == 'b' then anchor .boundary
      else if c == 'B' then anchor .noBoundary
      else if c.isDigit && c != '0' then return (← digitEscape, true)
      else
        match categoryEscape? c with
        | some (k, negated) =>
            goOn rest
            return (.oneOf false [.category k negated], true)
        | none => return (literal (← take (readCharEscape names)), true)

/-- An item with the quantifier behind it, if there is one. -/
def repeated (verbose : Bool) (item : Expr) (repeatable : Bool) : Reading Expr := do
  skip verbose
  match ← readQuantifier (← get).rest with
  | none => return item
  | some (q, rest) =>
      if !repeatable then throw .invalid
      let (manner, rest') := readManner rest
      goOn rest'
      return quantified q item manner

end Reading

/-! ## Expressions -/

/-- The expressions one after the other. -/
def sequence : List Expr → Expr
  | [] => .empty
  | [e] => e
  | e :: es => .seq e (sequence es)

/-- Where in a pattern an item stands: where flags for the whole pattern may stand, later outside of
all parentheses, or inside of some. -/
inductive Place where
  | start
  | later
  | inside
  deriving DecidableEq, Repr

/-- Behind an item or an alternative. -/
def Place.onward : Place → Place
  | .inside => .inside
  | _ => .later

open Reading

mutual

/-- Alternatives up to the end of the text or a closing parenthesis. -/
def readAlternatives (names : Names) : Nat → Place → Bool → Reading Expr
  | 0, _, _ => throw .invalid
  | fuel + 1, place, verbose => do
      let left := sequence (← readItems names fuel place verbose)
      match (← get).rest with
      | '|' :: rest =>
          goOn rest
          let verbose' ← if place = .inside then pure verbose else isVerbose
          return .alt left (← readAlternatives names fuel place.onward verbose')
      | _ => return left

/-- Items with their quantifiers. -/
def readItems (names : Names) : Nat → Place → Bool → Reading (List Expr)
  | 0, _, _ => throw .invalid
  | fuel + 1, place, verbose => do
      skip verbose
      let t := (← get).rest
      if t.isEmpty || t.head? == some '|' || t.head? == some ')' then return []
      if (← readQuantifier t).isSome then throw .invalid
      match ← readAtom names fuel place verbose with
      | some (atom, repeatable) =>
          let item ← repeated verbose atom repeatable
          return item :: (← readItems names fuel place.onward verbose)
      | none => readItems names fuel place (← isVerbose)

/-- One item without its quantifier, and whether it can have one; flags for the whole pattern are no
item. -/
def readAtom (names : Names) : Nat → Place → Bool → Reading (Option (Expr × Bool))
  | 0, _, _ => throw .invalid
  | fuel + 1, place, verbose => do
      match (← get).rest with
      | '(' :: '?' :: rest =>
          goOn rest
          readExtension names fuel place verbose
      | '(' :: rest =>
          goOn rest
          return some (← readGroup names fuel none verbose, true)
      | '[' :: rest =>
          goOn rest
          return some (← take (readClass names), true)
      | '\\' :: rest =>
          goOn rest
          return some (← escape names)
      | c :: rest =>
          goOn rest
          return some <|
            if c == '.' then (.any, true)
            else if c == '^' then (.anchor .lineStart, false)
            else if c == '$' then (.anchor .lineEnd, false)
            else (.char c, true)
      | [] => throw .invalid

/-- What stands in parentheses, up to the closing one. -/
def readInside (names : Names) : Nat → Bool → Reading Expr
  | 0, _ => throw .invalid
  | fuel + 1, verbose => do
      let body ← readAlternatives names fuel .inside verbose
      expect ')'
      return body

/-- A group with a number, and perhaps with a name. -/
def readGroup (names : Names) : Nat → Option Text → Bool → Reading Expr
  | 0, _, _ => throw .invalid
  | fuel + 1, name?, verbose => do
      let index ← enter name?
      let body ← readInside names fuel verbose
      leave index body
      return .group index body

/-- A part that looks back, from its body on. -/
def readBehind (names : Names) : Nat → Bool → Bool → Reading Expr
  | 0, _, _ => throw .invalid
  | fuel + 1, negated, verbose => do
      let outer := (← get).behind
      modify fun p => { p with behind := outer <|> some p.next }
      let body ← readInside names fuel verbose
      modify ({ · with behind := outer })
      lookBack negated body

/-- A choice, from what it asks for on. -/
def readChoice (names : Names) : Nat → Bool → Reading Expr
  | 0, _ => throw .invalid
  | fuel + 1, verbose => do
      let index ← asked
      let yes := sequence (← readItems names fuel .inside verbose)
      match (← get).rest with
      | '|' :: rest =>
          goOn rest
          let no := sequence (← readItems names fuel .inside verbose)
          expect ')'
          return .choice index yes no
      | _ =>
          expect ')'
          return .choice index yes .empty

/-- What stands in parentheses that open with a question mark, from behind it on. -/
def readExtension (names : Names) : Nat → Place → Bool → Reading (Option (Expr × Bool))
  | 0, _, _ => throw .invalid
  | fuel + 1, place, verbose => do
      let item := fun (r : Reading Expr) => do return some (← r, true)
      match (← get).rest with
      | ':' :: rest =>
          goOn rest
          item (readInside names fuel verbose)
      | '>' :: rest =>
          goOn rest
          item (.kept <$> readInside names fuel verbose)
      | '=' :: rest =>
          goOn rest
          item (.look 0 false <$> readInside names fuel verbose)
      | '!' :: rest =>
          goOn rest
          item (.look 0 true <$> readInside names fuel verbose)
      | '<' :: '=' :: rest =>
          goOn rest
          item (readBehind names fuel false verbose)
      | '<' :: '!' :: rest =>
          goOn rest
          item (readBehind names fuel true verbose)
      | '(' :: rest =>
          goOn rest
          item (readChoice names fuel verbose)
      | 'P' :: '<' :: rest =>
          goOn rest
          let name ← name '>'
          item (readGroup names fuel (some name) verbose)
      | 'P' :: '=' :: rest =>
          goOn rest
          item (do again (← named (← name ')')))
      | _ =>
          match ← take readFlagGroup with
          | .whole on =>
              if place ≠ .start then throw .invalid
              modify fun p => { p with letters := on ++ p.letters }
              return none
          | .part on off =>
              let verbose' := (verbose || on.contains 'x') && !off.contains 'x'
              let body ← readInside names fuel verbose'
              return some (withFlags on true (withFlags off false body), true)

end

/-- The pattern a text denotes under some flags, with these names of characters. -/
def readWith (names : Names) (source : Text) (flags : Flags) : Except ReadFault Pattern := do
  let (expr, p) ← (readAlternatives names (6 * source.length + 6) .start false).run { rest := source }
  if (flags.ascii || p.letters.contains 'a') && p.letters.contains 'u' then throw .clashing
  if !p.rest.isEmpty || p.next ≤ p.asked || p.ragged || p.letters.contains 't' && expr.hasRounds then
    throw .invalid
  return { source, flags, expr := withFlags p.letters true expr, groups := p.next - 1 }

/-- What makes patterns of their texts. -/
abbrev Compiler := Text → Flags → Except ReadFault Pattern

/-- The pattern a text denotes under some flags; it gives no character by its name. -/
def read : Compiler := readWith fun _ => none

end CodeAtlas.Pattern
