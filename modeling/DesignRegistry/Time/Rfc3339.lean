/-
**Timestamps of RFC 3339.**

`checkDateTime` accepts a text of the form `YYYY-MM-DDTHH:MM:SS`, with a fraction of up to nine
digits and an offset, when date and time exist.  It works in three steps with an error of its own
each: the shape, whose digits may be of any script; the digits that carry meaning, which must be
ASCII; and the calendar.
-/
import DesignRegistry.Time.Calendar
import DesignRegistry.Text.Category
import DesignRegistry.Json.Display

namespace DesignRegistry

/-! ### Problems -/

/-- Why a value is no timestamp. -/
inductive DateTimeProblem where
  /-- Not a text, or an empty one. -/
  | missing
  /-- A text of another shape. -/
  | shape
  /-- A text of the right shape that does not read as numbers. -/
  | unreadable (text : String)
  /-- An offset of a day or more, in minutes. -/
  | offset (minutes : Int)
  | year
  | month
  | day
  | hour
  | minute
  | second
deriving DecidableEq, Repr

namespace DateTimeProblem

/-- The length of time that an offset denotes: whole days, and the seconds beyond them. -/
def spanText (minutes : Int) : String :=
  let seconds := minutes * 60
  let days := Int.fdiv seconds 86400
  let rest := Int.fmod seconds 86400
  "datetime.timedelta(days=" ++ intText days
    ++ (if rest = 0 then "" else ", seconds=" ++ intText rest) ++ ")"

/-- The wording of a problem. -/
def message : DateTimeProblem → String
  | .missing => "date-time missing/empty"
  | .shape => "invalid RFC3339 format"
  | .unreadable text => "Invalid isoformat string: " ++ quoted text
  | .offset minutes =>
    "offset must be a timedelta strictly between -timedelta(hours=24) and timedelta(hours=24), not "
      ++ spanText minutes ++ "."
  | .year => "year 0 is out of range"
  | .month => "month must be in 1..12"
  | .day => "day is out of range for month"
  | .hour => "hour must be in 0..23"
  | .minute => "minute must be in 0..59"
  | .second => "second must be in 0..59"

end DateTimeProblem

/-! ### Shape -/

/-- Digits and marks: a text matches when a digit of any script stands at each `0` of the template
and the same mark at every other place. -/
def matchesTemplate (template s : List Char) : Bool :=
  match template, s with
  | [], [] => true
  | t :: ts, c :: cs => (if t = '0' then isDecimal c else t == c) && matchesTemplate ts cs
  | _, _ => false

/-- A timestamp cut into its parts. -/
structure DateTimeParts where
  /-- Date and time up to the second. -/
  base : List Char
  /-- The digits of the fraction. -/
  fraction : List Char
  /-- The offset, `Z` or sign, hour and minute. -/
  zone : List Char

namespace DateTimeParts

/-- The parts of a text, cut where the shape has its marks. -/
def of (s : List Char) : DateTimeParts :=
  let base := s.take 19
  match s.drop 19 with
  | '.' :: rest => ⟨base, rest.takeWhile isDecimal, rest.dropWhile isDecimal⟩
  | zone => ⟨base, [], zone⟩

/-- Whether the zone is `Z` or an offset. -/
def zoneFits (zone : List Char) : Bool :=
  zone == ['Z'] || matchesTemplate "+00:00".toList zone || matchesTemplate "-00:00".toList zone

/-- Whether the parts have the shape of a timestamp; a fraction has one to nine digits. -/
def fits (s : List Char) : Bool :=
  let p := of s
  matchesTemplate "0000-00-00T00:00:00".toList p.base && zoneFits p.zone
    && (if (s.drop 19).head? = some '.' then 1 ≤ p.fraction.length && p.fraction.length ≤ 9
        else true)

end DateTimeParts

/-! ### Meaning -/

/-- The number that the digits from `start` denote. -/
def fieldAt (s : List Char) (start width : Nat) : Nat := natOfDigits ((s.drop start).take width)

/-- The offset of a zone in minutes. -/
def zoneMinutes (zone : List Char) : Int :=
  let minutes : Int := fieldAt zone 1 2 * 60 + fieldAt zone 4 2
  if zone.head? = some '-' then -minutes else minutes

/-- Whether the digits that carry meaning are ASCII; of a fraction these are the first six. -/
def hasPlainDigits (p : DateTimeParts) : Bool :=
  (p.base ++ p.fraction.take 6 ++ p.zone).all fun c => c.toNat < 128

/-- Whether date, time and offset exist. -/
def checkCalendar (p : DateTimeParts) : Except DateTimeProblem Unit :=
  let offset := if p.zone = ['Z'] then 0 else zoneMinutes p.zone
  let year := fieldAt p.base 0 4
  let month := fieldAt p.base 5 2
  let day := fieldAt p.base 8 2
  if 1440 ≤ offset.natAbs then .error (.offset offset)
  else if year = 0 then .error .year
  else if month = 0 ∨ 12 < month then .error .month
  else if day = 0 ∨ daysInMonth year month < day then .error .day
  else if 23 < fieldAt p.base 11 2 then .error .hour
  else if 59 < fieldAt p.base 14 2 then .error .minute
  else if 59 < fieldAt p.base 17 2 then .error .second
  else .ok ()

/-- The text with its zone spelled as an offset. -/
def withOffset (s : List Char) : String :=
  match s.getLast? with
  | some 'Z' => String.ofList (s.dropLast ++ "+00:00".toList)
  | _ => String.ofList s

/-- Whether a text is a timestamp.  One line feed after it keeps its shape but not its meaning. -/
def checkDateTimeText (text : String) : Except DateTimeProblem Unit :=
  let s := text.toList
  if s.isEmpty then .error .missing
  else if DateTimeParts.fits s then
    let p := DateTimeParts.of s
    if hasPlainDigits p then checkCalendar p else .error (.unreadable (withOffset s))
  else if s.getLast? = some '\n' && DateTimeParts.fits s.dropLast then
    .error (.unreadable (withOffset s))
  else .error .shape

/-- Whether a value is a timestamp. -/
def checkDateTime (v : Json) : Except DateTimeProblem Unit :=
  match v with
  | .str text => checkDateTimeText text
  | _ => .error .missing

end DesignRegistry
