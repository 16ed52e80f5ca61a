import MemShell.Json.Double

/-!
# Timestamps

The date and time of a record in the proleptic Gregorian calendar, in universal time. A moment is
given in milliseconds since 1970 and kept as the nearest double of its seconds, so far away from
that year a moment can come out a microsecond early.
-/

namespace MemShell

/-- Why a moment has no timestamp. -/
inductive TimestampError
  /-- The year is not one of 1 to 9999. -/
  | yearOutside (year : Int)
  deriving DecidableEq

/-- The message of a timestamp error. -/
def TimestampError.message : TimestampError → Text
  | yearOutside year => "year " ++ Text.ofInt year ++ " is out of range"

/-- A day of the calendar. -/
structure Date where
  /-- The year. -/
  year : Int
  /-- The month, from 1 on. -/
  month : Nat
  /-- The day of the month, from 1 on. -/
  day : Nat
  deriving DecidableEq

/-- The day that lies a number of days after the first of January 1970. Years are taken to start in
March, so that a leap day is the last of its year; 400 of them make an era of 146097 days. -/
def Date.ofDays (days : Int) : Date :=
  let shifted := days + 719468
  let era := shifted / 146097
  let dayOfEra := (shifted % 146097).toNat
  let yearOfEra := (dayOfEra - dayOfEra / 1460 + dayOfEra / 36524 - dayOfEra / 146096) / 365
  let dayOfYear := dayOfEra - (365 * yearOfEra + yearOfEra / 4 - yearOfEra / 100)
  let monthFromMarch := (5 * dayOfYear + 2) / 153
  let month := if monthFromMarch < 10 then monthFromMarch + 3 else monthFromMarch - 9
  { year := era * 400 + yearOfEra + (if month ≤ 2 then 1 else 0)
    month
    day := dayOfYear - (153 * monthFromMarch + 2) / 5 + 1 }

namespace Timestamp

/-- The number of microseconds of a day. -/
def microsPerDay : Int := 86400000000

/-- A moment in microseconds since 1970: the double nearest to its seconds, rounded to a whole
microsecond. -/
def micros (millis : Int) : Int :=
  let magnitude :=
    match Double.ofFraction false millis.natAbs 1000 with
    | .finite _ significand exponent =>
      let (n, d) := Double.scaleDown (significand * 1000000) 1 (-exponent)
      Double.roundHalfEven n d
    | _ => 0
  if millis < 0 then -(magnitude : Int) else magnitude

/-- A number with at least two digits. -/
def twoDigits (n : Nat) : Text := Text.padLeft 2 '0' (Text.ofNat n)

/-- A date, with two digits at least for month and day. -/
def dateText (date : Date) : Text :=
  Text.ofInt date.year ++ "-" ++ twoDigits date.month ++ "-" ++ twoDigits date.day

/-- The time of day after a number of microseconds, to the millisecond. -/
def timeText (micros : Nat) : Text :=
  let seconds := micros / 1000000
  twoDigits (seconds / 3600) ++ ":" ++ twoDigits (seconds / 60 % 60) ++ ":" ++
    twoDigits (seconds % 60) ++ "." ++ Text.padLeft 3 '0' (Text.ofNat (micros % 1000000 / 1000))

/-- Checks that a year is one of 1 to 9999. -/
def checkYear (year : Int) : Except TimestampError Unit :=
  if 1 ≤ year ∧ year ≤ 9999 then .ok () else .error (.yearOutside year)

/-- The text of a moment. The day before it has to lie in the calendar too. -/
def ofMillis (millis : Int) : Except TimestampError Text := do
  let days := micros millis / microsPerDay
  let date := Date.ofDays days
  checkYear date.year
  checkYear (Date.ofDays (days - 1)).year
  return dateText date ++ " " ++ timeText (micros millis % microsPerDay).toNat

end Timestamp

end MemShell
