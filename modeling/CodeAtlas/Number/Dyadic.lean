/-
# Number.Dyadic -- the exact value behind a binary floating-point number

A finite double is a dyadic rational `mantissa * 2 ^ exponent`, and everything that has to be
exact about it -- comparison with a whole number, rounding to a whole number, its decimal text --
is integer arithmetic on that pair.  `ofFloat?` reads the pair off the bits; infinities and NaN
have none.  `roundHalfEven` is the nearest whole number, a tie going to the even neighbour.
-/

namespace CodeAtlas.Number

set_option autoImplicit false

/-- The rational `mantissa * 2 ^ exponent`. -/
structure Dyadic where
  mantissa : Int
  exponent : Int
  deriving DecidableEq, Repr

namespace Dyadic

def ofFloat? (x : Float) : Option Dyadic :=
  let bits := x.toBits.toNat
  let fraction := bits % Nat.pow 2 52
  let scale := bits / Nat.pow 2 52 % Nat.pow 2 11
  let size : Nat := if scale == 0 then fraction else Nat.pow 2 52 + fraction
  if scale == 2047 then none
  else some
    { mantissa := if bits / Nat.pow 2 63 == 1 then -(size : Int) else size
      exponent := (max scale 1 : Nat) - 1075 }

def ofInt (n : Int) : Dyadic := ⟨n, 0⟩

/-- The value as a fraction whose denominator is a power of two. -/
def numerator (d : Dyadic) : Int := d.mantissa * Nat.pow 2 d.exponent.toNat

def denominator (d : Dyadic) : Nat := Nat.pow 2 (-d.exponent).toNat

def lt (a b : Dyadic) : Bool :=
  a.numerator * b.denominator < b.numerator * a.denominator

/-- The greatest whole number that is not above the value. -/
def floor (d : Dyadic) : Int := Int.fdiv d.numerator d.denominator

/-- The whole part, towards zero. -/
def truncate (d : Dyadic) : Int := Int.tdiv d.numerator d.denominator

/-- The nearest whole number; a tie goes to the even neighbour. -/
def roundHalfEven (d : Dyadic) : Int :=
  let below := d.floor
  let twiceRest := 2 * (d.numerator - below * d.denominator)
  if twiceRest < d.denominator then below
  else if (d.denominator : Int) < twiceRest then below + 1
  else if below % 2 == 0 then below else below + 1

end Dyadic

/-- A whole number as the nearest double; infinite when it is too large for one. -/
def floatOfInt (n : Int) : Float :=
  let size := Float.ofScientific n.natAbs false 0
  if n < 0 then -size else size

/-- A whole number as the nearest double, unless it is too large for one. -/
def floatOfInt? (n : Int) : Option Float :=
  let x := floatOfInt n
  if (Dyadic.ofFloat? x).isSome then some x else none

end CodeAtlas.Number
