/-
# Toml.Moment -- dates and times as TOML text

A day is written `1979-05-27`, and a time may follow it behind one more character: `07:32:00`,
perhaps with a fraction of a second, and `Z` or an offset such as `-07:00` (`readMoment`).  What
stands between the numbers of a day or of a time is not looked at.  A day or a time that does not
exist is none.  The fraction is taken as a number with as many digits as are there; one with more
than six is calculated in floating point, so one that is too large for that is a fault -- also where
no day stands in front of it.  An offset that cannot be read is dropped, and the fraction with it.

A time alone is told by its beginning, and what follows it is passed over (`timeNumbers?`).  Three to
six digits after a point count as microseconds, however many they are.

A moment is written in its ISO form, but `Z` stands for no offset.
-/
import CodeAtlas.Value.Number

namespace CodeAtlas.Toml

set_option autoImplicit false

/-! ## Days -/

/-- The minutes of an offset: its sign, the hours in two characters, and behind one more the minutes
in two. -/
def offset? (t : Text) : Option Int := do
  let t : Text := if t == "Z" then "+00:00" else t
  let hours ← Number.readInt? ((t.take 3).drop 1)
  let minutes ← Number.readInt? ((t.take 6).drop 4)
  let size := 60 * hours + minutes
  return if t.head? == some '-' then -size else size

/-- The microseconds of a fraction, if it is one. -/
def readFraction (digits : Text) : Except Fault (Option Int) :=
  match Number.readInt? digits with
  | none => .ok none
  | some n =>
      if digits.length ≤ 6 then .ok (some (n * Nat.pow 10 (6 - digits.length)))
      else do
        let shift := Float.pow 10.0 (Float.ofInt (6 - digits.length))
        return some (← Value.wholePart ((← Value.floatingPoint n) * shift))

/-- A fraction and the offset behind it. -/
def cutFraction (t : Text) : Text × Option Text :=
  if t.getLast?.any fun c => c == 'Z' || c == 'z' then (t.dropLast, some "Z")
  else if t.contains '+' then (t.takeWhile (· != '+'), some (t.dropWhile (· != '+')))
  else if t.contains '-' then (t.takeWhile (· != '-'), some (t.dropWhile (· != '-')))
  else (t, none)

/-- The microseconds and the offset that follow the seconds. -/
def readAfterSeconds : Text → Except Fault (Int × Option Int)
  | '.' :: t =>
      let (digits, offset) := cutFraction t
      match offset.map offset? with
      | some none => .ok (0, none)
      | ahead => do
          match ← readFraction digits with
          | none => return (0, none)
          | some microseconds => return (microseconds, ahead.join)
  | t => .ok (0, offset? t)

/-- The day that a text tells, perhaps with a time on it. -/
def readMoment (t : Text) : Except Fault (Option Moment) := do
  let (microseconds, ahead) ← readAfterSeconds (t.drop 19)
  let number := fun first last => Number.readInt? ((t.take last).drop first)
  if !(t.drop 1).contains '-' then return none
  return do
    let day ← Day.ofNumbers? (← number 0 4) (← number 5 7) (← number 8 10)
    if t.length == 10 then return .day day
    let clock ← Clock.ofNumbers? (← number 11 13) (← number 14 16) (← number 17 19) microseconds
    return .dayTime day clock ahead

/-! ## Times -/

/-- The number that two digits in front of a text tell. -/
def takeTwo : Text → Option (Nat × Text)
  | a :: b :: t => if a.isDigit && b.isDigit then some (Number.digitsValue [a, b], t) else none
  | _ => none

/-- The microseconds behind a time. -/
def microsecondsAt : Text → Nat
  | '.' :: t =>
      let digits := (t.take 6).takeWhile Char.isDigit
      if 3 ≤ digits.length then Number.digitsValue digits else 0
  | _ => 0

/-- The hour, the minute, the second and the microseconds of a text that begins as a time does. -/
def timeNumbers? (t : Text) : Option (Nat × Nat × Nat × Nat) := do
  let (hour, ':' :: t) ← takeTwo t | none
  let (minute, ':' :: t) ← takeTwo t | none
  let (second, t) ← takeTwo t
  return (hour, minute, second, microsecondsAt t)

/-- The moment that a text spells, if it has the form of one; a time that does not exist makes it
unreadable. -/
def moment? (t : Text) : Except Fault (Option Moment) :=
  match timeNumbers? t with
  | none => readMoment t
  | some (hour, minute, second, microsecond) =>
      match Clock.ofNumbers? hour minute second microsecond with
      | some clock => .ok (some (.time clock))
      | none => .error .unreadable

/-! ## Writing -/

/-- The text of a moment. -/
def writeMoment (m : Moment) : Except Fault Text :=
  if !m.isNear then .error .farOffset
  else match m with
    | .dayTime day clock (some 0) => .ok (day.iso ++ 'T' :: clock.iso ++ ['Z'])
    | m => .ok (m.iso 'T')

end CodeAtlas.Toml
