/-
**Days and clock times.**

A moment is a count of microseconds from the start of 1970 in universal time.  The calendar turns
the count of days into year, month and day: years are counted from March, so that the leap day ends
the year, in cycles of four hundred years with one length.

Main definitions

* `isLeapYear`, `daysInMonth` — the calendar's rules;
* `CivilDate`, `CivilDate.ofDays` — the date that lies a number of days from the start of 1970;
* `Moment.timestamp` — the text of a moment to the millisecond;
* `filenameStamp` — a timestamp made fit for a file's name.
-/
import DesignRegistry.Number.Decimal

namespace DesignRegistry

/-! ### Calendar -/

/-- Whether a year has a leap day. -/
def isLeapYear (year : Nat) : Bool := (year % 4 == 0 && year % 100 != 0) || year % 400 == 0

/-- The number of days of a month. -/
def daysInMonth (year month : Nat) : Nat :=
  if month = 2 then (if isLeapYear year then 29 else 28)
  else if month = 4 ∨ month = 6 ∨ month = 9 ∨ month = 11 then 30
  else 31

/-- A date. -/
structure CivilDate where
  /-- The year. -/
  year : Int
  /-- The month, from 1 to 12. -/
  month : Nat
  /-- The day of the month, from 1. -/
  day : Nat
deriving DecidableEq, Repr

namespace CivilDate

/-- The date that lies `days` days after the first of January 1970.  Days are counted from the
first of March of the year 0 in cycles of 146097 days. -/
def ofDays (days : Int) : CivilDate :=
  let shifted := days + 719468
  let cycle := Int.fdiv shifted 146097
  let dayOfCycle := (Int.fmod shifted 146097).toNat
  let yearOfCycle :=
    (dayOfCycle - dayOfCycle / 1460 + dayOfCycle / 36524 - dayOfCycle / 146096) / 365
  let dayOfYear := dayOfCycle - (365 * yearOfCycle + yearOfCycle / 4 - yearOfCycle / 100)
  let fromMarch := (5 * dayOfYear + 2) / 153
  let day := dayOfYear - (153 * fromMarch + 2) / 5 + 1
  let month := if fromMarch < 10 then fromMarch + 3 else fromMarch - 9
  { year := cycle * 400 + yearOfCycle + (if month ≤ 2 then 1 else 0)
    month := month
    day := day }

end CivilDate

/-! ### Moments -/

/-- A number with zeros in front up to a width. -/
def padded (width n : Nat) : List Char :=
  let digits := natDigits n
  List.replicate (width - digits.length) '0' ++ digits

/-- A moment: microseconds from the start of 1970. -/
structure Moment where
  /-- The count of microseconds. -/
  micros : Int
deriving DecidableEq, Repr, Inhabited

namespace Moment

/-- The milliseconds from the start of 1970, rounded down. -/
def millis (t : Moment) : Int := Int.fdiv t.micros 1000

/-- The date of a moment. -/
def date (t : Moment) : CivilDate := .ofDays (Int.fdiv t.millis 86400000)

/-- The milliseconds since midnight. -/
def millisOfDay (t : Moment) : Nat := (Int.fmod t.millis 86400000).toNat

/-- Date and time of day to the second, with the given marks between date and time. -/
def secondsChars (separator : List Char) (t : Moment) : List Char :=
  let d := t.date
  let seconds := t.millisOfDay / 1000
  padded 4 d.year.toNat ++ '-' :: padded 2 d.month ++ '-' :: padded 2 d.day ++ separator
    ++ padded 2 (seconds / 3600) ++ ':' :: padded 2 (seconds / 60 % 60)
    ++ ':' :: padded 2 (seconds % 60)

/-- The text of a moment, to the millisecond. -/
def timestampChars (t : Moment) : List Char :=
  secondsChars ['T'] t ++ '.' :: padded 3 (t.millisOfDay % 1000) ++ ['Z']

/-- The text of a moment, to the millisecond. -/
def timestamp (t : Moment) : String := String.ofList t.timestampChars

end Moment

/-- A timestamp for a file's name: colons and dots become dashes. -/
def filenameStamp (timestamp : String) : String :=
  String.ofList (timestamp.toList.map fun c => if c = ':' ∨ c = '.' then '-' else c)

/-! ### Clocks -/

/-- A clock that moves on by a fixed step at each reading. -/
structure Clock where
  /-- What the next reading gives. -/
  now : Moment
  /-- The microseconds between two readings. -/
  step : Int
deriving Repr

namespace Clock

/-- A reading, and the clock after it. -/
def read (c : Clock) : Moment × Clock := (c.now, { c with now := ⟨c.now.micros + c.step⟩ })

end Clock

end DesignRegistry
