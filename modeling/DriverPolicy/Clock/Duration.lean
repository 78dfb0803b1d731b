/-!
# Durations

A duration is a whole number of microseconds, negative or not, of less than a thousand
million days. It shows in two ways: as a clock reading after a number of days, and as the
list of its nonzero parts. In both the days carry the sign, so the rest is never negative.
-/

namespace DriverPolicy

/-- A duration in microseconds. -/
structure Duration where
  /-- The length in microseconds. -/
  microseconds : Int
deriving DecidableEq, Repr

/-- A number of days that no duration can have. -/
structure DurationOverflow where
  /-- The number of days, rounded down. -/
  days : Int
deriving DecidableEq, Repr

namespace Duration

/-- Microseconds in a day. -/
def perDay : Int := 86400000000

/-- The greatest magnitude of a duration in days. -/
def dayLimit : Int := 999999999

/-- A duration of whole microseconds, refused when it has too many days. -/
def ofMicroseconds (n : Int) : Except DurationOverflow Duration :=
  let days := n.fdiv perDay
  if days < -dayLimit || dayLimit < days then .error ⟨days⟩ else .ok ⟨n⟩

/-- A duration of whole milliseconds, refused when it has too many days. -/
def ofMilliseconds (n : Int) : Except DurationOverflow Duration := ofMicroseconds (1000 * n)

/-- The whole milliseconds of a duration, rounded down. -/
def milliseconds (d : Duration) : Int := d.microseconds.fdiv 1000

/-- The days, rounded down. -/
def days (d : Duration) : Int := d.microseconds.fdiv perDay

/-- The seconds beyond the days. -/
def secondsOfDay (d : Duration) : Nat := ((d.microseconds.fmod perDay).fdiv 1000000).toNat

/-- The microseconds beyond the seconds. -/
def microsecondsOfSecond (d : Duration) : Nat := (d.microseconds.fmod 1000000).toNat

/-- A number in decimal digits with zeros in front, at least `width` long. -/
def padded (width n : Nat) : String :=
  let digits := Nat.toDigits 10 n
  String.ofList (List.replicate (width - digits.length) '0' ++ digits)

/-- The clock reading of a duration, after its days if it has any. -/
def clockText (d : Duration) : String :=
  let days :=
    if d.days = 0 then ""
    else toString d.days ++ (if d.days.natAbs = 1 then " day, " else " days, ")
  let hours := d.secondsOfDay / 3600
  let minutes := d.secondsOfDay / 60 % 60
  let seconds := d.secondsOfDay % 60
  let fraction :=
    if d.microsecondsOfSecond = 0 then "" else "." ++ padded 6 d.microsecondsOfSecond
  s!"{days}{hours}:{padded 2 minutes}:{padded 2 seconds}{fraction}"

/-- The nonzero parts of a duration by name. -/
def partsText (d : Duration) : String :=
  let part (name : String) (n : Int) : List String := if n = 0 then [] else [s!"{name}={n}"]
  let parts := part "days" d.days ++ part "seconds" d.secondsOfDay ++
    part "microseconds" d.microsecondsOfSecond
  let inside := if parts = [] then "0" else ", ".intercalate parts
  s!"datetime.timedelta({inside})"

end Duration

namespace DurationOverflow

/-- Why a duration is refused: numbers of days beyond 32 bits are not even counted. -/
def message (e : DurationOverflow) : String :=
  if e.days < -2147483648 || 2147483647 < e.days then "Python int too large to convert to C int"
  else s!"days={e.days}; must have magnitude <= {Duration.dayLimit}"

end DurationOverflow

end DriverPolicy
