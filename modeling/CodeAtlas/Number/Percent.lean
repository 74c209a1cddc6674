/-
# Number.Percent -- fractions in whole per cent

A fraction is shown in whole per cent: one hundred times the fraction, rounded to the nearest whole
number, a half to the even neighbour.  What is too large, or not a number, has no percentage.
-/
import CodeAtlas.Number.Dyadic
import CodeAtlas.Number.Integer

namespace CodeAtlas.Number

set_option autoImplicit false

/-- A fraction in whole per cent. -/
def percent? (x : Float) : Option Int := (Dyadic.ofFloat? (x * 100.0)).map Dyadic.roundHalfEven

/-- A fraction between 0 and 1 in whole per cent. -/
def showPercent (x : Float) : Text := showInt ((percent? x).getD 0) ++ "%"

end CodeAtlas.Number
