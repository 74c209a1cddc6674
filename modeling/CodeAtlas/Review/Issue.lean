/-
# Review.Issue -- what a review finds

An issue is one finding about one or several groups: its kind, how severe it is, the group it is
about, a message and a suggestion, the names it affects, where they are defined, and the figures
behind it.

Kinds and severities are closed lists of words; any other word is a fault.
-/
import CodeAtlas.Group
import CodeAtlas.Fault

namespace CodeAtlas.Review

set_option autoImplicit false

/-! ## Kinds and severities -/

inductive Kind where
  | duplicate
  | similar
  | orphaned
  | inconsistentNaming
  | singleUse
  | tooLarge
  | tooSmall
  deriving DecidableEq, Repr, Inhabited

namespace Kind

/-- All kinds, in the order in which they are looked for. -/
def all : List Kind :=
  [duplicate, similar, orphaned, inconsistentNaming, singleUse, tooLarge, tooSmall]

def name : Kind → Text
  | .duplicate => "duplicate"
  | .similar => "similar"
  | .orphaned => "orphaned"
  | .inconsistentNaming => "inconsistent_naming"
  | .singleUse => "single_use"
  | .tooLarge => "too_large"
  | .tooSmall => "too_small"

/-- The heading in a report. -/
def heading : Kind → Text
  | .duplicate => "Duplicate Groups"
  | .similar => "Similar Groups"
  | .orphaned => "Orphaned Groups"
  | .inconsistentNaming => "Inconsistent Naming"
  | .singleUse => "Single-Use Groups"
  | .tooLarge => "Too Large Groups"
  | .tooSmall => "Too Small Groups"

def ofValue (v : Value) : Except Fault Kind :=
  match v.text?.bind fun t => all.find? (·.name == t) with
  | some k => .ok k
  | none => .error (.notAMember v "RefactoringIssueType")

end Kind

inductive Severity where
  | info
  | warning
  | error
  deriving DecidableEq, Repr, Inhabited

namespace Severity

def all : List Severity := [info, warning, error]

def name : Severity → Text
  | .info => "info"
  | .warning => "warning"
  | .error => "error"

def ofValue (v : Value) : Except Fault Severity :=
  match v.text?.bind fun t => all.find? (·.name == t) with
  | some s => .ok s
  | none => .error (.notAMember v "RefactoringSeverity")

end Severity

/-! ## Issues -/

/-- A file and a line in it. -/
structure Location where
  file : Text
  line : Int
  deriving DecidableEq, Repr

/-- The figures behind an issue, as far as they matter for it. -/
structure Metrics where
  similarity : Option Float := none
  uses : Option Int := none
  files : Option Int := none
  lines : Option Int := none

structure Issue where
  kind : Kind
  severity : Severity
  group : Text
  message : Text
  suggestion : Text
  affected : List Text := []
  locations : List Location := []
  metrics : Metrics := {}

end CodeAtlas.Review
