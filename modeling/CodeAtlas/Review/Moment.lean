/-
# Review.Moment -- points in time

A moment is a number of seconds, whole or not.  Moments are compared by their exact values.  The
difference of two whole moments is whole; any other difference is taken in floating point, and a
whole moment that is too large for that is a fault.

`wholeDays` is the number of whole days in a span, rounded down.  In a span that is not whole the
days are found by dividing in floating point what is left when the rest is taken off, and that is
rounded, so the last digits of a very long span are not exact.  An endless span has no days.
-/
import CodeAtlas.Fault
import CodeAtlas.Number.Dyadic

namespace CodeAtlas.Review

set_option autoImplicit false

inductive Moment where
  | whole (seconds : Int)
  | fractional (seconds : Float)

namespace Moment

def secondsPerDay : Int := 86400

/-- The exact value; infinities and NaN have none. -/
def value? : Moment → Option Number.Dyadic
  | .whole n => some (.ofInt n)
  | .fractional x => Number.Dyadic.ofFloat? x

/-- Beside an infinity or a NaN, every whole moment is as good as zero. -/
def extent : Moment → Float
  | .whole _ => 0.0
  | .fractional x => x

/-- Is `a` before `b`? -/
def before (a b : Moment) : Bool :=
  match a.value?, b.value? with
  | some x, some y => x.lt y
  | _, _ => a.extent < b.extent

def toFloat : Moment → Except Fault Float
  | .whole n => (Number.floatOfInt? n).elim (.error .tooLarge) .ok
  | .fractional x => .ok x

/-- The span from `b` to `a`. -/
def since (a b : Moment) : Except Fault Moment :=
  match a, b with
  | .whole a, .whole b => .ok (.whole (a - b))
  | a, b => do return .fractional ((← a.toFloat) - (← b.toFloat))

/-- The moment a number of days before. -/
def daysEarlier (m : Moment) (days : Int) : Except Fault Moment :=
  m.since (.whole (days * secondsPerDay))

/-- The nearest whole number, a half rounded down. -/
def snapped (d : Number.Dyadic) : Int :=
  if (d.denominator : Int) < 2 * (d.numerator - d.floor * d.denominator) then d.floor + 1
  else d.floor

/-- The days in a span of `d` seconds, by division in floating point. -/
def quotientDays (d : Number.Dyadic) : Int :=
  let days := Int.tdiv d.numerator (d.denominator * secondsPerDay)
  let quotient := Number.floatOfInt (days * secondsPerDay) / Number.floatOfInt secondsPerDay
  let isBelow := d.numerator < days * secondsPerDay * d.denominator
  ((Number.Dyadic.ofFloat? (if isBelow then quotient - 1.0 else quotient)).map snapped).getD 0

/-- The whole days in a span, rounded down. -/
def wholeDays : Moment → Except Fault Int
  | .whole n => .ok (Int.fdiv n secondsPerDay)
  | .fractional x => ((Number.Dyadic.ofFloat? x).map quotientDays).elim (.error .nanAsInteger) .ok

end Moment

end CodeAtlas.Review
