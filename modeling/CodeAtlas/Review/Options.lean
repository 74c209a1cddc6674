/-
# Review.Options -- thresholds and enabled checks

The options of a review come from a table of settings.  A setting that is missing has its default;
one that is there has to stand for a number (`Value.toInteger`, `Value.toDouble`).  Of the enabled
checks, the names of known kinds are kept in their order and everything else is passed over.
-/
import CodeAtlas.Review.Issue
import CodeAtlas.Value.Number

namespace CodeAtlas.Review

set_option autoImplicit false

structure Options where
  /-- How alike two names must be to be reported. -/
  similarity : Number.Double := .ofFloat 0.8
  /-- After how many days without a change a group is orphaned. -/
  orphanedDays : Int := 90
  /-- Below how many uses a group is hardly used. -/
  singleUse : Int := 2
  /-- Beyond how many files a group is too large. -/
  tooLarge : Int := 50
  /-- Below how many uses a group in one file is too small. -/
  tooSmall : Int := 2
  checks : List Kind := [.duplicate, .similar, .orphaned, .inconsistentNaming, .singleUse]

namespace Options

/-- The known kinds in a sequence of names. -/
def checksOf (v : Value) : Except Fault (List Kind) :=
  match v.sequence? with
  | some vs => .ok (vs.filterMap fun v => (Kind.ofValue v).toOption)
  | none => .error .wrongKind

/-- A setting read by `f`, or its default. -/
def setting {α : Type} (e : Entries Value) (key : Text) (f : Value → Except Fault α)
    (absent : α) : Except Fault α :=
  match e.get? key with
  | some v => f v
  | none => .ok absent

def ofEntries (e : Entries Value) : Except Fault Options := do
  let usual : Options := {}
  return { checks := ← setting e "enabled_checks" checksOf usual.checks
           similarity := ← setting e "similarity_threshold" Value.toDouble usual.similarity
           orphanedDays := ← setting e "orphaned_threshold" Value.toInteger usual.orphanedDays
           singleUse := ← setting e "single_use_threshold" Value.toInteger usual.singleUse
           tooLarge := ← setting e "too_large_threshold" Value.toInteger usual.tooLarge
           tooSmall := ← setting e "too_small_threshold" Value.toInteger usual.tooSmall }

/-- The options in any value: only a table has settings. -/
def ofValue : Value → Except Fault Options
  | .table e => ofEntries e
  | _ => .error .noSuchMember

end Options

end CodeAtlas.Review
