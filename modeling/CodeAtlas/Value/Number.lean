/-
# Value.Number -- values that stand for numbers

A whole number, a floating-point number, a truth value or a text can stand for a number; nothing
else can.  A truth value stands for 0 or 1.  As a whole number a floating-point number loses its
fraction; infinities and NaN are no whole numbers.
-/
import CodeAtlas.Fault

namespace CodeAtlas.Value

set_option autoImplicit false

/-- The whole part of a floating-point number. -/
def wholePart (x : Float) : Except Fault Int :=
  match Number.Dyadic.ofFloat? x with
  | some d => .ok d.truncate
  | none => .error (if x.isNaN then .nanAsInteger else .tooLarge)

/-- The whole number a value stands for. -/
def toInteger : Value → Except Fault Int
  | .int n => .ok n
  | .bool b => .ok (if b then 1 else 0)
  | .float x => wholePart x
  | .text t => readInteger t
  | _ => .error .wrongKind

/-- A whole number as a floating-point number, if it is not too large. -/
def floatingPoint (n : Int) : Except Fault Float :=
  (Number.floatOfInt? n).elim (.error .tooLarge) .ok

/-- The floating-point number a value stands for. -/
def toDouble : Value → Except Fault Number.Double
  | .float x => .ok x
  | .int n => (floatingPoint n).map .ofFloat
  | .bool b => .ok (.ofFloat (if b then 1.0 else 0.0))
  | .text t => readNumber t
  | _ => .error .wrongKind

end CodeAtlas.Value
