/-
# Toml.Word -- numbers and truth values

A value without quotation marks or brackets is `true`, `false` or a number.  A number is
floating-point when it has a point, or an `e` and no `x`; then a digit comes first and one after
the point.  `inf` and `nan` are floating-point too.  Any other number is whole, and may be
written in hexadecimal, octal or binary; in decimal it has no needless zeros in front.  Low lines
are dropped.

A minus in front subtracts from zero, so there is no negative zero; a second sign may follow it
in a whole number.

A line takes a number only if it is tidy (`isTidy`): no low line at an end, beside a point or
next to another, and no needless zero in front.
-/
import CodeAtlas.Fault

namespace CodeAtlas.Toml

set_option autoImplicit false

/-! ## Tidy numbers -/

def holds (part t : Text) : Bool := (Text.find? part t).isSome

/-- Does the number begin with a zero that no member of `after` follows? -/
def hasLeadingZero (after : Text) : Text → Bool
  | '0' :: c :: _ => !after.contains c
  | _ => false

def isTidy (t : Text) : Bool :=
  let n := Text.trim t
  if n.isEmpty || n.head? == some '_' || n.getLast? == some '_' then false
  else if holds "_." n || holds "._" n then false
  else if n.length == 1 then true
  else if hasLeadingZero ".obx" n then false
  else if n.head? == some '+' || n.head? == some '-' then
    !hasLeadingZero "." (n.drop 1) && !holds "__" (n.drop 1)
  else !holds "__" n

/-! ## Numbers -/

def dropLowLines (t : Text) : Text := t.filter (· != '_')

/-- Digits of any script as plain ones. -/
def plainDigit (c : Char) : Char := ((Text.digitValue? c).map Nat.digitChar).getD c

/-- The number that digits spell, each of them below `radix`. -/
def digits? (radix : Nat) (ds : Text) : Option Nat :=
  if ds.isEmpty then none
  else (ds.mapM fun c => (Text.hexValue? c).filter (· < radix)).map fun values =>
    values.foldl (fun n d => radix * n + d) 0

/-- The number that decimal digits spell; in front of zeros alone can stand a zero. -/
def decimal? (ds : Text) : Option Nat :=
  if Number.maxDigits < ds.length then none
  else (digits? 10 ds).filter fun n => ds.head? != some '0' || n == 0

/-- A whole number without sign. -/
def unsigned? : Text → Option Nat
  | '0' :: c :: ds =>
      if c == 'x' || c == 'X' then digits? 16 ds
      else if c == 'o' || c == 'O' then digits? 8 ds
      else if c == 'b' || c == 'B' then digits? 2 ds
      else decimal? ('0' :: c :: ds)
  | ds => decimal? ds

/-- A whole number with white space around it. -/
def whole? (t : Text) : Option Int :=
  let bare := Text.dropWhileEnd Number.isNumberBlank (t.dropWhile Number.isNumberBlank)
  let signed := Number.takeSign (bare.map plainDigit)
  (unsigned? signed.2).map fun n => if signed.1 then -(n : Int) else n

def isFloating (t : Text) : Bool :=
  t.contains '.' || (!t.contains 'x' && (t.contains 'e' || t.contains 'E'))

/-- A floating-point number, which begins with a digit and does not end with its point. -/
def floating? (t : Text) : Option Number.Double :=
  if t.head?.any Char.isDigit && (Text.cut '.' t).2 != some [] then Number.readFloat? t else none

/-- A number without the sign in front. -/
def number? (negative : Bool) (t : Text) : Option Value :=
  let ofFloat := fun (x : Number.Double) =>
    Value.float (if negative then .ofFloat (0.0 - x.toFloat) else x)
  if isFloating t then (floating? t).map ofFloat
  else if Number.isWord "inf" t || Number.isWord "nan" t then (Number.readFloat? t).map ofFloat
  else (whole? t).map fun n => .int (if negative then -n else n)

/-- A number or a truth value; `tidy` says whether its line found it tidy. -/
def word? (tidy : Bool) (t : Text) : Option Value :=
  if t == "true" then some (.bool true)
  else if t == "false" then some (.bool false)
  else if !tidy then none
  else
    let signed := Number.takeSign t
    number? signed.1 (dropLowLines signed.2)

end CodeAtlas.Toml
