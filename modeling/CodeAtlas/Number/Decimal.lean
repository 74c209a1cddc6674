/-
# Number.Decimal -- decimal text of floating-point numbers

Reading (`readFloat?`) takes white space around the number, a sign, digits of any script with
single low lines between digits, a point, an exponent, and the words `inf`, `infinity` and `nan`
in any case.  The value is the nearest double; a minus changes its sign, also that of a NaN.

Writing (`showFloat`) gives the fewest digits that read back as the same double and, of those,
the ones nearest to its value (`shortest`).  For one digit, two digits and so on, the two
neighbours of the value on that decimal grid are tested against the interval of reals that round
to it; the ends of the interval belong to it when the mantissa is even.  Seventeen digits always
suffice.  Positional notation is used from `1e-4` up to, not including, `1e16` (`Layout.plain`).
-/
import CodeAtlas.Number.Double
import CodeAtlas.Number.Dyadic
import CodeAtlas.Number.Integer

namespace CodeAtlas.Number

set_option autoImplicit false

/-! ## Reading -/

/-- `size * 10 ^ exponent`, to the nearest double. -/
def scaledFloat (size : Nat) (exponent : Int) : Float :=
  let magnitude : Int := (Nat.toDigits 10 size).length + exponent
  if size == 0 then 0.0
  else if 400 < magnitude then 1.0 / 0.0
  else if magnitude < -400 then 0.0
  else Float.ofScientific size (exponent < 0) exponent.natAbs

/-- The text without low lines, if each stands between two digits. -/
def dropLowLines? (afterDigit : Bool) : Text → Option Text
  | [] => some []
  | '_' :: rest =>
      if afterDigit && rest.head?.any Text.isDecimal then dropLowLines? false rest else none
  | c :: rest => (dropLowLines? (Text.isDecimal c) rest).map (c :: ·)

/-- An exponent: `e`, a sign, digits; nothing at all means zero. -/
def readExponent? : Text → Option Int
  | [] => some 0
  | c :: rest =>
      let signed := takeSign rest
      if (c == 'e' || c == 'E') && !signed.2.isEmpty && signed.2.all Text.isDecimal then
        let n : Int := digitsValue signed.2
        some (if signed.1 then -n else n)
      else none

/-- A number without sign, white space and low lines. -/
def readUnsigned? (t : Text) : Option Float :=
  let whole := t.takeWhile Text.isDecimal
  let afterWhole := t.dropWhile Text.isDecimal
  let fractional := match afterWhole with
    | '.' :: rest => (rest.takeWhile Text.isDecimal, rest.dropWhile Text.isDecimal)
    | rest => ([], rest)
  if whole.isEmpty && fractional.1.isEmpty then none
  else (readExponent? fractional.2).map fun e =>
    scaledFloat (digitsValue (whole ++ fractional.1)) (e - fractional.1.length)

def isWord (word : String) (t : Text) : Bool := t.map Char.toLower == word.toList

def readFloat? (t : Text) : Option Double :=
  let bare := (Text.dropWhileEnd isNumberBlank (t.dropWhile isNumberBlank))
  (dropLowLines? false bare).bind fun plain =>
    let signed := takeSign plain
    let size? :=
      if isWord "inf" signed.2 || isWord "infinity" signed.2 then some (1.0 / 0.0)
      else if isWord "nan" signed.2 then some (0.0 / 0.0)
      else readUnsigned? signed.2
    size?.map fun x => if signed.1 then (Double.ofFloat x).neg else .ofFloat x

/-! ## The shortest digits -/

def digitCount (n : Nat) : Nat := if n == 0 then 0 else (Nat.toDigits 10 n).length

/-- `⌊log₁₀ (num / den)⌋` for a positive fraction. -/
def decimalMagnitude (num den : Nat) : Int :=
  if den ≤ num then (digitCount (num / den) : Int) - 1 else -(digitCount ((den - 1) / num) : Int)

/-- The reals that round to one double, over a common denominator. -/
structure Interval where
  low : Nat
  value : Nat
  high : Nat
  den : Nat
  closed : Bool

/-- The interval of `size * 2 ^ exponent`, the exponent as in `Dyadic.ofFloat?`. -/
def Interval.ofParts (size : Nat) (exponent : Int) : Interval :=
  let narrow := size == Nat.pow 2 52 && -1074 < exponent
  let up := Nat.pow 2 (exponent - 2).toNat
  { low := (4 * size - if narrow then 1 else 2) * up
    value := 4 * size * up
    high := (4 * size + 2) * up
    den := Nat.pow 2 (2 - exponent).toNat
    closed := size % 2 == 0 }

/-- Is `digits * 10 ^ place` in the interval? -/
def Interval.holds (i : Interval) (digits : Nat) (place : Int) : Bool :=
  let x := digits * Nat.pow 10 place.toNat * i.den
  let scale := Nat.pow 10 (-place).toNat
  if i.closed then i.low * scale ≤ x && x ≤ i.high * scale
  else i.low * scale < x && x < i.high * scale

/-- The neighbour of the value on the grid `10 ^ place` that is in the interval, the nearer one
if both are. -/
def Interval.onGrid? (i : Interval) (place : Int) : Option Nat :=
  let num := i.value * Nat.pow 10 (-place).toNat
  let den := i.den * Nat.pow 10 place.toNat
  let below := num / den
  let twiceRest := 2 * (num % den)
  match i.holds below place, i.holds (below + 1) place with
  | true, false => some below
  | false, true => some (below + 1)
  | true, true =>
      some (if twiceRest < den || (twiceRest == den && below % 2 == 0) then below else below + 1)
  | false, false => none

/-- Digits and place of the shortest decimal in the interval. -/
def Interval.shortest (i : Interval) : Nat × Int :=
  let top := decimalMagnitude i.value i.den
  let tries := (List.range 17).map fun (n : Nat) => top - n
  (tries.findSome? fun place => (i.onGrid? place).map (·, place)).getD (0, 0)

/-! ## Writing -/

/-- Where positional notation applies: the point stands `point` places after the first digit. -/
def isPlain (point : Int) : Bool := -4 < point && point ≤ 16

/-- Digits without zeros at the end, the point `point` places after the first one. -/
def layOut (digits : Text) (point : Int) : Text :=
  if isPlain point then
    if point ≤ 0 then "0." ++ List.replicate (-point).toNat '0' ++ digits
    else if digits.length ≤ point.toNat then
      digits ++ List.replicate (point.toNat - digits.length) '0' ++ ".0"
    else digits.take point.toNat ++ '.' :: digits.drop point.toNat
  else
    let e := point - 1
    let size := showNat e.natAbs
    let fraction : Text := if digits.length ≤ 1 then [] else '.' :: digits.drop 1
    digits.take 1 ++ fraction ++ 'e' :: (if e < 0 then '-' else '+') ::
      (if size.length < 2 then '0' :: size else size)

/-- The shortest text that reads back as `x`. -/
def showFloat (x : Float) : Text :=
  match Dyadic.ofFloat? x with
  | none => if x.isNaN then "nan" else if x < 0.0 then "-inf" else "inf"
  | some d =>
      let sign : Text := if x.toBits.toNat / Nat.pow 2 63 == 1 then "-" else []
      if d.mantissa == 0 then sign ++ "0.0"
      else
        let found := (Interval.ofParts d.mantissa.natAbs d.exponent).shortest
        let shown := showNat found.1
        sign ++ layOut (Text.dropWhileEnd (· == '0') shown) (shown.length + found.2)

end CodeAtlas.Number
