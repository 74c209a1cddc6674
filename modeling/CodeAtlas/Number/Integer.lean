/-
# Number.Integer -- whole numbers as text

Writing is plain decimal, with `-` in front of a negative number.

Reading is wider: white space around the number, one sign, decimal digits of any script, and
single low lines between digits (`readInt`).  Two things can go wrong, and the order in which
they are looked for is part of the rule:

1. the run of digits and low lines in front is not well formed -> `notANumber`;
2. the run has more than `maxDigits` digits, zeros in front counted -> `tooManyDigits`;
3. something other than white space follows the run -> `notANumber`.

The four separators `U+001C` to `U+001F` are white space elsewhere but not around a number.
-/
import CodeAtlas.Text.Digit

namespace CodeAtlas.Number

set_option autoImplicit false

/-! ## Writing -/

def showNat (n : Nat) : Text := Nat.toDigits 10 n

def showInt : Int → Text
  | .ofNat n => showNat n
  | .negSucc n => '-' :: showNat (n + 1)

/-! ## Reading -/

/-- Why a text is not a whole number. -/
inductive IntegerFault where
  | notANumber
  | tooManyDigits (count : Nat)
  deriving DecidableEq, Repr

/-- Longest run of digits that is read. -/
def maxDigits : Nat := 4300

/-- White space that may stand around a number. -/
def isNumberBlank (c : Char) : Bool :=
  Text.isBlankChar c && !(28 ≤ c.toNat && c.toNat ≤ 31)

/-- Take one sign off; `true` for a minus. -/
def takeSign : Text → Bool × Text
  | '-' :: t => (true, t)
  | '+' :: t => (false, t)
  | t => (false, t)

/-- The number that digits of any script spell. -/
def digitsValue (digits : Text) : Nat :=
  digits.foldl (fun n c => 10 * n + (Text.digitValue? c).getD 0) 0

/-- Are the digits of `run` grouped by single low lines? -/
def wellGrouped (run : Text) : Bool := (Text.splitOn '_' run).all (!·.isEmpty)

def readInt (t : Text) : Except IntegerFault Int :=
  let signed := takeSign (t.dropWhile isNumberBlank)
  let inRun := fun c => Text.isDecimal c || c == '_'
  let run := signed.2.takeWhile inRun
  let digits := run.filter (· != '_')
  if !wellGrouped run then .error .notANumber
  else if maxDigits < digits.length then .error (.tooManyDigits digits.length)
  else if !(signed.2.dropWhile inRun).all isNumberBlank then .error .notANumber
  else
    let n : Int := digitsValue digits
    .ok (if signed.1 then -n else n)

def readInt? (t : Text) : Option Int := (readInt t).toOption

end CodeAtlas.Number
