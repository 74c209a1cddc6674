/-
# Value.Moment -- dates and times

A moment is a day of the calendar, a time of day, or both; a time on a day may also tell how many
minutes its clock is ahead of universal time.  Days and times that do not exist cannot be built.

The three forms are the ISO one (`iso`), which is also shown for a moment by itself with a blank in
the middle, and the form inside others (`literal`).  An offset of a day or more is stored, but has
no ISO form (`isNear`).
-/
import CodeAtlas.Number.Integer

namespace CodeAtlas

set_option autoImplicit false

/-! ## Days and times -/

def isLeapYear (year : Nat) : Bool := year % 4 == 0 && (year % 100 != 0 || year % 400 == 0)

def daysIn (year month : Nat) : Nat :=
  if month == 2 then if isLeapYear year then 29 else 28
  else if month == 4 || month == 6 || month == 9 || month == 11 then 30
  else 31

/-- A day of the calendar, from the year 1 to the year 9999. -/
structure Day where
  year : Nat
  month : Nat
  day : Nat
  inYears : 1 ≤ year ∧ year ≤ 9999
  inYear : 1 ≤ month ∧ month ≤ 12
  inMonth : 1 ≤ day ∧ day ≤ daysIn year month
  deriving DecidableEq

/-- A time of day. -/
structure Clock where
  hour : Nat
  minute : Nat
  second : Nat
  microsecond : Nat
  inDay : hour < 24
  inHour : minute < 60
  inMinute : second < 60
  inSecond : microsecond < 1000000
  deriving DecidableEq

inductive Moment where
  | day (d : Day)
  | time (c : Clock)
  /-- `ahead` are the minutes that the clock is ahead of universal time. -/
  | dayTime (d : Day) (c : Clock) (ahead : Option Int)
  deriving DecidableEq

/-! ## Numbers that exist -/

/-- The day with these numbers. -/
def Day.ofNumbers? (year month day : Int) : Option Day :=
  if h : (1 ≤ year.toNat ∧ year.toNat ≤ 9999) ∧ (1 ≤ month.toNat ∧ month.toNat ≤ 12) ∧
      (1 ≤ day.toNat ∧ day.toNat ≤ daysIn year.toNat month.toNat) then
    some ⟨_, _, _, h.1, h.2.1, h.2.2⟩
  else none

/-- The time with these numbers. -/
def Clock.ofNumbers? (hour minute second microsecond : Int) : Option Clock :=
  if h : (0 ≤ hour ∧ 0 ≤ minute ∧ 0 ≤ second ∧ 0 ≤ microsecond) ∧ hour.toNat < 24 ∧
      minute.toNat < 60 ∧ second.toNat < 60 ∧ microsecond.toNat < 1000000 then
    some ⟨_, _, _, _, h.2.1, h.2.2.1, h.2.2.2.1, h.2.2.2.2⟩
  else none

/-! ## Texts -/

/-- A number with zeros in front. -/
def padded (width n : Nat) : Text :=
  let digits := Number.showNat n
  List.replicate (width - digits.length) '0' ++ digits

def Day.iso (d : Day) : Text := padded 4 d.year ++ '-' :: padded 2 d.month ++ '-' :: padded 2 d.day

def Clock.iso (c : Clock) : Text :=
  padded 2 c.hour ++ ':' :: padded 2 c.minute ++ ':' :: padded 2 c.second ++
    if c.microsecond == 0 then [] else '.' :: padded 6 c.microsecond

/-- An offset in hours and minutes. -/
def isoOffset (ahead : Int) : Text :=
  (if ahead < 0 then '-' else '+') :: padded 2 (ahead.natAbs / 60) ++ ':' ::
    padded 2 (ahead.natAbs % 60)

/-- The numbers of a time; no seconds if they are none, nor fractions. -/
def Clock.numbers (c : Clock) : List Nat :=
  [c.hour, c.minute] ++
    if c.microsecond != 0 then [c.second, c.microsecond]
    else if c.second != 0 then [c.second] else []

namespace Moment

def isTime : Moment → Bool
  | .time _ => true
  | _ => false

/-- Is the offset, if there is one, less than a day? -/
def isNear : Moment → Bool
  | .dayTime _ _ (some ahead) => ahead.natAbs < 1440
  | _ => true

/-- The ISO form, with this character between day and time. -/
def iso (between : Char) : Moment → Text
  | .day d => d.iso
  | .time c => c.iso
  | .dayTime d c ahead => d.iso ++ between :: c.iso ++ ahead.elim [] isoOffset

/-- A name with numbers in parentheses. -/
def call (name : String) (numbers : List Nat) (rest : Text) : Text :=
  name.toList ++ '(' :: Text.join ", " (numbers.map Number.showNat) ++ rest ++ [')']

/-- The form inside others.  Where in memory the offset is kept, which is part of it and is never the
same, is left out. -/
def literal : Moment → Text
  | .day d => call "datetime.date" [d.year, d.month, d.day] []
  | .time c => call "datetime.time" c.numbers []
  | .dayTime d c ahead =>
      call "datetime.datetime" ([d.year, d.month, d.day] ++ c.numbers)
        (ahead.elim [] fun _ => ", tzinfo=<toml.tz.TomlTz object>")

end Moment

end CodeAtlas
