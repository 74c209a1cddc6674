/-
# Value.Basic -- the values a data file can hold

Saved groups and settings are read from files that may hold anything: nothing, truth values,
whole numbers, floating-point numbers, text, moments, lists and tables.  A whole number and a
floating-point number are never the same value, and a truth value is neither.

A value is *hollow* when it is nothing, false, zero or empty; most readers take a hollow value
for a missing one.
-/
import CodeAtlas.Entries
import CodeAtlas.Number.Double
import CodeAtlas.Value.Moment

namespace CodeAtlas

set_option autoImplicit false

inductive Value where
  | null
  | bool (b : Bool)
  | int (n : Int)
  | float (x : Number.Double)
  | text (t : Text)
  | moment (m : Moment)
  | list (members : List Value)
  | table (members : List (Text × Value))

namespace Value

instance : Inhabited Value := ⟨.null⟩

/-- Nothing, false, zero, or empty. -/
def isHollow : Value → Bool
  | .null => true
  | .bool b => !b
  | .int n => n == 0
  | .float x => x.toFloat == 0.0
  | .text t => t.isEmpty
  | .moment _ => false
  | .list vs => vs.isEmpty
  | .table ms => ms.isEmpty

/-- `none` for a hollow value. -/
def solid? (v : Value) : Option Value := if v.isHollow then none else some v

def text? : Value → Option Text
  | .text t => some t
  | _ => none

def table? : Value → Option (Entries Value)
  | .table ms => some ms
  | _ => none

def list? : Value → Option (List Value)
  | .list vs => some vs
  | _ => none

/-- The value as a sequence: the members of a list, the characters of a text, the keys of a
table.  A number, a truth value or a moment is no sequence. -/
def sequence? : Value → Option (List Value)
  | .list vs => some vs
  | .text t => some (t.map fun c => .text [c])
  | .table ms => some (ms.map fun m => .text m.1)
  | _ => none

end Value

end CodeAtlas
