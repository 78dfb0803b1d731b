import DriverPolicy.Number.Binary
import DriverPolicy.Clock.Duration

/-!
# Instants and their calendar stamps

An instant is a whole number of microseconds since the start of 1970 in universal time. Its
stamp is the date and the time of day in the Gregorian calendar, continued to all years. An
instant that is given as a number of seconds has to lie in the years that four digits can show.
-/

namespace DriverPolicy

/-- A moment in universal time. -/
structure Instant where
  /-- Microseconds since the start of 1970. -/
  microseconds : Int
deriving DecidableEq, Repr

/-- A day of the Gregorian calendar. -/
structure CalendarDay where
  /-- The year. -/
  year : Int
  /-- The month, from one. -/
  month : Nat
  /-- The day of the month, from one. -/
  day : Nat
deriving DecidableEq, Repr

/-- The calendar day that lies `n` days after the first of January 1970. Counted from the
first of March of year zero, each span of 400 years has 146097 days and the leap day comes
last in its year. -/
def CalendarDay.ofDayNumber (n : Int) : CalendarDay :=
  let shifted := n + 719468
  let era := shifted.fdiv 146097
  let dayOfEra := (shifted.fmod 146097).toNat
  let yearOfEra :=
    (dayOfEra - dayOfEra / 1460 + dayOfEra / 36524 - dayOfEra / 146096) / 365
  let dayOfYear := dayOfEra - (365 * yearOfEra + yearOfEra / 4 - yearOfEra / 100)
  let shiftedMonth := (5 * dayOfYear + 2) / 153
  let day := dayOfYear - (153 * shiftedMonth + 2) / 5 + 1
  let month := if shiftedMonth < 10 then shiftedMonth + 3 else shiftedMonth - 9
  let year := (yearOfEra : Int) + era * 400 + (if month ≤ 2 then 1 else 0)
  ⟨year, month, day⟩

/-- The number of days in a month. -/
def daysInMonth (year month : Nat) : Nat :=
  if month = 2 then
    if year % 4 = 0 && (year % 100 ≠ 0 || year % 400 = 0) then 29 else 28
  else if month = 4 || month = 6 || month = 9 || month = 11 then 30
  else 31

/-- A day as year, month and day of month. -/
def CalendarDay.text (d : CalendarDay) : String :=
  s!"{Duration.padded 4 d.year.toNat}-{Duration.padded 2 d.month}-{Duration.padded 2 d.day}"

/-- Why a number of seconds tells no moment. -/
inductive TimeFault where
  | undefined
  | beyondSeconds
  | beyondYears
  | yearOutOfRange (year : Int)
  | notANumber (typeName : String)
deriving DecidableEq, Repr

/-- A fault of a time as a kind of error. -/
def TimeFault.kind : TimeFault → String
  | undefined | yearOutOfRange _ => "ValueError"
  | beyondSeconds => "OverflowError"
  | beyondYears => "OSError"
  | notANumber _ => "TypeError"

/-- What is wrong with a number of seconds. -/
def TimeFault.message : TimeFault → String
  | undefined => "Invalid value NaN (not a number)"
  | beyondSeconds => "timestamp out of range for platform time_t"
  | beyondYears => "[Errno 75] Value too large for defined data type"
  | yearOutOfRange year => s!"year {year} is out of range"
  | notANumber typeName => s!"'{typeName}' object cannot be interpreted as an integer"

namespace Instant

/-- The part of a day that has passed. -/
def timeOfDay (i : Instant) : Duration := ⟨i.microseconds.fmod Duration.perDay⟩

/-- The calendar day. -/
def calendarDay (i : Instant) : CalendarDay :=
  .ofDayNumber (i.microseconds.fdiv Duration.perDay)

/-- Hours, minutes and seconds, two digits each. -/
def clock (i : Instant) : String :=
  let seconds := i.timeOfDay.secondsOfDay
  s!"{Duration.padded 2 (seconds / 3600)}:{Duration.padded 2 (seconds / 60 % 60)}:" ++
    Duration.padded 2 (seconds % 60)

/-- The stamp with its offset as four digits; fractions of a second are dropped. -/
def secondStamp (i : Instant) : String := s!"{i.calendarDay.text}T{i.clock}+0000"

/-- The stamp with its offset as a clock reading and six digits of a nonzero fraction. -/
def fullStamp (i : Instant) : String :=
  let micro := i.timeOfDay.microsecondsOfSecond
  let fraction := if micro = 0 then "" else "." ++ Duration.padded 6 micro
  s!"{i.calendarDay.text}T{i.clock}{fraction}+00:00"

/-- The instant that lies a number of microseconds after the start of 1970. It is refused outside
of the years from 1 to 9999, and named by its year if its seconds fit into 64 bits and the years
since 1900 into 32 bits. -/
def ofMicroseconds (n : Int) : Except TimeFault Instant :=
  let seconds := n.fdiv 1000000
  let year := (Instant.mk n).calendarDay.year
  if seconds < -9223372036854775808 || 9223372036854775807 < seconds then .error .beyondSeconds
  else if year - 1900 < -2147483648 || 2147483647 < year - 1900 then .error .beyondYears
  else if year < 1 || 9999 < year then .error (.yearOutOfRange (year.bmod 4294967296))
  else .ok ⟨n⟩

/-- The instant that lies a number of seconds after the start of 1970. The fraction of a second
becomes microseconds by a multiplication of 64 bits, and these a whole number, ties to even. -/
def ofSeconds : Binary → Except TimeFault Instant
  | .finite negative m p =>
    let units := m <<< p
    let whole := units / unitsPerOne
    let micro :=
      match binary64.round negative (units % unitsPerOne * 1000000) 1 with
      | .finite _ m' p' => roundDiv (m' <<< p') unitsPerOne
      | _ => 0
    let total : Int := whole * 1000000 + micro
    ofMicroseconds (if negative then -total else total)
  | .infinite _ => .error .beyondSeconds
  | .notANumber => .error .undefined

end Instant

end DriverPolicy
