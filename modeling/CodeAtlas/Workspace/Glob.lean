/-
# Workspace.Glob -- one path component with wildcards

A glob describes names: `*` any run of characters, `?` one character, `[...]` one of a class, a
backslash takes the next character as it stands.  None of the wildcards matches a slash, except a
class that says so.

A class is negated by `!` or `^` in front.  A closing bracket right after that belongs to the
class.  Two characters around a hyphen are a range.

Two things can go wrong when a glob is read: a class that is never closed, and a backslash at the
end.  A range that ends before it begins is found out only when the class is made.
-/
import CodeAtlas.Fault
import CodeAtlas.Pattern.Basic

namespace CodeAtlas.Workspace

set_option autoImplicit false

/-- The pieces of a glob. -/
inductive GlobItem where
  | run
  | one
  | literal (c : Char)
  | oneOf (negated : Bool) (members : Text)
  deriving DecidableEq, Repr

/-- Why a text is no glob. -/
inductive GlobFault where
  | unclosedClass
  | danglingEscape
  deriving DecidableEq, Repr

namespace GlobItem

/-- Is the class that begins here negated?  With the text after the mark. -/
def takeNegation : Text → Bool × Text
  | '!' :: t => (true, t)
  | '^' :: t => (true, t)
  | t => (false, t)

/-- The members of a class and the text after its closing bracket. -/
def takeMembers? (t : Text) : Option (Text × Text) :=
  let first : Text := if t.head? == some ']' then [']'] else []
  let body := t.drop first.length
  match body.dropWhile (· != ']') with
  | [] => none
  | _ :: rest => some (first ++ body.takeWhile (· != ']'), rest)

/-- The first piece of a glob, and the text after it. -/
def next (c : Char) (t : Text) : Except GlobFault (GlobItem × Text) :=
  match c with
  | '*' => .ok (.run, t)
  | '?' => .ok (.one, t)
  | '\\' =>
      match t with
      | [] => .error .danglingEscape
      | d :: rest => .ok (.literal d, rest)
  | '[' =>
      let negation := takeNegation t
      match takeMembers? negation.2 with
      | none => .error .unclosedClass
      | some (members, rest) => .ok (.oneOf negation.1 members, rest)
  | _ => .ok (.literal c, t)

/-- The pieces of a glob; `fuel` is at least the length of the text. -/
def readFrom : Nat → Text → Except GlobFault (List GlobItem)
  | 0, _ => .ok []
  | _ + 1, [] => .ok []
  | fuel + 1, c :: t => do
      let (item, rest) ← next c t
      return item :: (← readFrom fuel rest)

def read (t : Text) : Except GlobFault (List GlobItem) := readFrom t.length t

/-! ## Expressions -/

open Pattern in
/-- Any character but a slash. -/
def notSlash : Expr := .oneOf true [.range '/' '/']

open Pattern in
/-- The ranges of a class. -/
def ranges : Text → Except Fault (List ClassItem)
  | [] => .ok []
  | c :: '-' :: d :: rest =>
      if d.toNat < c.toNat then .error .characterRange
      else (ranges rest).map (ClassItem.range c d :: ·)
  | c :: rest => (ranges rest).map (ClassItem.range c c :: ·)

open Pattern in
def expr : GlobItem → Except Fault Expr
  | .run => .ok (.rounds 0 none true notSlash)
  | .one => .ok notSlash
  | .literal c => .ok (.char c)
  | .oneOf negated members => (ranges members).map (Expr.oneOf negated)

end GlobItem

open Pattern in
/-- The expression of a glob. -/
def globExpr (items : List GlobItem) : Except Fault Expr :=
  (items.mapM GlobItem.expr).map fun es => es.foldr Expr.seq .empty

end CodeAtlas.Workspace
