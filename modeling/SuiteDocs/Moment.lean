import SuiteDocs.Text.Symbol

/-!
Moments of the calendar and their timestamps.

Timestamps are in universal time, to the millisecond. The calendar is the Gregorian one, reckoned
back to the year 1.
-/

set_option autoImplicit false

namespace SuiteDocs

/-- A date and a time of day, `offset` seconds ahead of universal time. Without an offset it is
universal time. -/
structure Moment where
  year : Int
  month : Int
  day : Int
  hour : Int
  minute : Int
  second : Int
  microsecond : Int
  offset : Option Int
  deriving DecidableEq, Repr

namespace Moment

/-- Why a moment is not one of the calendar. -/
inductive Error where
  /-- The offset is a whole day or more. -/
  | offset (seconds : Int)
  /-- The offset has more days than a span of time can have. -/
  | span (days : Int)
  /-- The offset has more days than a machine word can count. -/
  | spanWord
  /-- A field does not fit in a machine word, or only in a long one. -/
  | aboveWord
  | belowWord
  | beyondLongWord
  | year (value : Int)
  | month
  | day
  | hour
  | minute
  | second
  | microsecond
  /-- The moment in universal time lies before the year 1 or after the year 9999. -/
  | outOfRange
  deriving DecidableEq, Repr

/-- The text of a span of seconds, split into days and seconds of a day. -/
def spanText (seconds : Int) : Text :=
  let days := seconds.fdiv 86400
  let rest := seconds.fmod 86400
  let dayPart : List Text := if days == 0 then [] else ["days=" ++ Text.ofInt days]
  let restPart : List Text := if rest == 0 then [] else ["seconds=" ++ Text.ofInt rest]
  let parts := dayPart ++ restPart
  let inside : Text := if parts.isEmpty then "0" else List.intercalate ", " parts
  "datetime.timedelta(" ++ inside ++ ")"

def Error.message : Error → Text
  | .offset seconds =>
    "offset must be a timedelta strictly between -timedelta(hours=24) and timedelta(hours=24), " ++
      "not " ++ spanText seconds ++ "."
  | .span days => "days=" ++ Text.ofInt days ++ "; must have magnitude <= 999999999"
  | .spanWord => "Python int too large to convert to C int"
  | .aboveWord => "signed integer is greater than maximum"
  | .belowWord => "signed integer is less than minimum"
  | .beyondLongWord => "Python int too large to convert to C long"
  | .year value => "year " ++ Text.ofInt value ++ " is out of range"
  | .month => "month must be in 1..12"
  | .day => "day is out of range for month"
  | .hour => "hour must be in 0..23"
  | .minute => "minute must be in 0..59"
  | .second => "second must be in 0..59"
  | .microsecond => "microsecond must be in 0..999999"
  | .outOfRange => "date value out of range"

/-- Whether a year has a 29th of February. -/
def isLeap (year : Nat) : Bool :=
  year % 4 == 0 && (year % 100 != 0 || year % 400 == 0)

/-- The lengths of the months of a year. -/
def monthLengths (year : Nat) : List Nat :=
  [31, if isLeap year then 29 else 28, 31, 30, 31, 30, 31, 31, 30, 31, 30, 31]

/-- Whether a number is one of a signed machine word with `bits` bits besides the sign. -/
def fitsWord (bits : Nat) (value : Int) : Bool :=
  let limit : Int := Nat.pow 2 bits
  value < limit && -limit ≤ value

/-- Checks an offset: it has to be a span of time, and shorter than a day. -/
def checkOffset (offset : Int) : Except Error Unit :=
  let days := offset.fdiv 86400
  if !fitsWord 31 days then .error .spanWord
  else if 999999999 < days.natAbs then .error (.span days)
  else if offset ≤ -86400 || 86400 ≤ offset then .error (.offset offset)
  else .ok ()

/-- Checks that a field fits in a machine word. -/
def checkWord (value : Int) : Except Error Unit :=
  if !fitsWord 63 value then .error .beyondLongWord
  else if fitsWord 31 value then .ok ()
  else .error (if value < 0 then .belowWord else .aboveWord)

/-- Checks that the fields are those of a moment: the offset first, then the size of all fields, and
then their range from the year down. -/
def check (moment : Moment) : Except Error Unit := do
  moment.offset.forM checkOffset
  [moment.year, moment.month, moment.day, moment.hour, moment.minute, moment.second,
    moment.microsecond].forM checkWord
  if moment.year < 1 || 9999 < moment.year then throw (.year moment.year)
  if moment.month < 1 || 12 < moment.month then throw .month
  let length := (monthLengths moment.year.toNat).getD (moment.month - 1).toNat 0
  if moment.day < 1 || (length : Int) < moment.day then throw .day
  if moment.hour < 0 || 23 < moment.hour then throw .hour
  if moment.minute < 0 || 59 < moment.minute then throw .minute
  if moment.second < 0 || 59 < moment.second then throw .second
  if moment.microsecond < 0 || 999999 < moment.microsecond then throw .microsecond

/-- The number of days before the first of January of a year, from the year 1 on. -/
def daysBeforeYear (year : Nat) : Nat :=
  let past := year - 1
  365 * past + past / 4 - past / 100 + past / 400

/-- The number of days from the first of January of the year 1 to a date. -/
def dayNumber (year month day : Nat) : Nat :=
  daysBeforeYear year + ((monthLengths year).take (month - 1)).foldr (· + ·) 0 + (day - 1)

/-- The microseconds in universal time since the start of the year 1. -/
def instant (moment : Moment) : Int :=
  let days := dayNumber moment.year.toNat moment.month.toNat moment.day.toNat
  let seconds := (((days : Int) * 24 + moment.hour) * 60 + moment.minute) * 60 + moment.second
  (seconds - moment.offset.getD 0) * 1000000 + moment.microsecond

/-- The year of a day number and the day in that year, both counted from zero. Four hundred years
have 146097 days, the first three of their centuries 36524 each, four years 1461, and the first
three of them 365 each. -/
def yearOf (day : Nat) : Nat × Nat :=
  let cycle := day / 146097
  let day := day % 146097
  let century := min (day / 36524) 3
  let day := day - century * 36524
  let fourYears := day / 1461
  let day := day % 1461
  let single := min (day / 365) 3
  (cycle * 400 + century * 100 + fourYears * 4 + single, day - single * 365)

/-- The month and the day in it, both counted from zero, of a day of the year. -/
def monthOf : List Nat → Nat → Nat × Nat
  | [], day => (0, day)
  | length :: rest, day =>
    if day < length then (0, day)
    else
      let (month, day) := monthOf rest (day - length)
      (month + 1, day)

/-- A number with zeros on its left up to a width. -/
def padded (width n : Nat) : Text :=
  let digits := Text.ofNat n
  List.replicate (width - digits.length) (.char '0') ++ digits

/-- The timestamp of a number of milliseconds since the start of the year 1. -/
def timestampOf (milliseconds : Nat) : Text :=
  let seconds := milliseconds / 1000
  let minutes := seconds / 60
  let hours := minutes / 60
  let (year, dayOfYear) := yearOf (hours / 24)
  let (month, day) := monthOf (monthLengths (year + 1)) dayOfYear
  padded 4 (year + 1) ++ "-" ++ padded 2 (month + 1) ++ "-" ++ padded 2 (day + 1) ++ "T" ++
    padded 2 (hours % 24) ++ ":" ++ padded 2 (minutes % 60) ++ ":" ++ padded 2 (seconds % 60) ++
    "." ++ padded 3 (milliseconds % 1000) ++ "Z"

/-- The moment in universal time that lies some microseconds after the start of the year 1. -/
def ofInstant (instant : Nat) : Moment :=
  let seconds := instant / 1000000
  let minutes := seconds / 60
  let hours := minutes / 60
  let (year, dayOfYear) := yearOf (hours / 24)
  let (month, day) := monthOf (monthLengths (year + 1)) dayOfYear
  { year := year + 1
    month := month + 1
    day := day + 1
    hour := hours % 24
    minute := minutes % 60
    second := seconds % 60
    microsecond := instant % 1000000
    offset := none }

/-- The instant from which clocks of computers count: the start of the year 1970. -/
def epoch : Nat :=
  daysBeforeYear 1970 * 86400 * 1000000

/-- The first instant after the calendar. -/
def endOfCalendar : Int :=
  (daysBeforeYear 10000 : Int) * 86400 * 1000000

/-- The timestamp of a moment in universal time. Fractions of a millisecond are cut off. -/
def timestamp (moment : Moment) : Except Error Text := do
  moment.check
  let instant := moment.instant
  if instant < 0 || endOfCalendar ≤ instant then throw .outOfRange
  return timestampOf (instant.toNat / 1000)

end Moment

end SuiteDocs
