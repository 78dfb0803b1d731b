import DriverPolicy.Clock.Instant
import DriverPolicy.Number.Shortest
import DriverPolicy.Text.Quoted

/-!
# TOML values

A TOML document is a table: names with values, in order. Values are texts, numbers, truth
values, dates and times of day, arrays and tables. A value has a term, which names what it
is; a date or a time also has a plain text.
-/

namespace DriverPolicy

/-- A time of day. -/
structure TimeOfDay where
  /-- The hour. -/
  hour : Nat
  /-- The minute. -/
  minute : Nat
  /-- The second. -/
  second : Nat
  /-- The fraction of the second. -/
  microsecond : Nat
deriving DecidableEq, Repr

/-- A TOML value. The offset of a date and time is a number of minutes. -/
inductive TomlValue where
  | text (value : String)
  | integer (value : Int)
  | number (value : Binary)
  | boolean (value : Bool)
  | date (day : CalendarDay)
  | time (time : TimeOfDay)
  | dateTime (day : CalendarDay) (time : TimeOfDay) (offset : Option Int)
  | list (items : List TomlValue)
  | table (fields : List (String × TomlValue))
deriving Inhabited

/-- Names with values, in order. -/
abbrev TomlTable := List (String × TomlValue)

/-- The value of a name in a table. -/
def TomlTable.find? (table : TomlTable) (name : String) : Option TomlValue :=
  (List.find? (·.1 = name) table).map (·.2)

namespace TimeOfDay

/-- Two digits for each part, and six for a nonzero fraction. -/
def text (time : TimeOfDay) : String :=
  let fraction :=
    if time.microsecond = 0 then "" else "." ++ Duration.padded 6 time.microsecond
  s!"{Duration.padded 2 time.hour}:{Duration.padded 2 time.minute}:" ++
    s!"{Duration.padded 2 time.second}{fraction}"

/-- The parts in order; a fraction of zero, and then also a second of zero, is left out. -/
def parts (time : TimeOfDay) : List String :=
  let front := [toString time.hour, toString time.minute]
  if time.microsecond ≠ 0 then front ++ [toString time.second, toString time.microsecond]
  else if time.second ≠ 0 then front ++ [toString time.second]
  else front

end TimeOfDay

/-- An offset of minutes as a sign and a clock reading. -/
def offsetText (minutes : Int) : String :=
  let sign := if minutes < 0 then "-" else "+"
  s!"{sign}{Duration.padded 2 (minutes.natAbs / 60)}:{Duration.padded 2 (minutes.natAbs % 60)}"

/-- The term of an offset. -/
def offsetTerm (minutes : Int) : String :=
  if minutes = 0 then "datetime.timezone.utc"
  else
    let inside := Duration.partsText ⟨minutes * 60000000⟩
    s!"datetime.timezone({inside})"

/-- The parts of a day in order. -/
def CalendarDay.parts (day : CalendarDay) : List String :=
  [toString day.year, toString day.month, toString day.day]

namespace TomlValue

/-- The plain text of a date or a time; other values have none. -/
def clockText? : TomlValue → Option String
  | date day => some day.text
  | .time t => some t.text
  | dateTime day t offset => some (day.text ++ " " ++ t.text ++ (offset.map offsetText).getD "")
  | _ => none

/-- Arguments in brackets behind a name. -/
def applied (name : String) (arguments : List String) : String :=
  name ++ "(" ++ ", ".intercalate arguments ++ ")"

mutual

/-- A value as a term. -/
def term : TomlValue → String
  | text value => quoted value
  | integer value => toString value
  | number value => value.text
  | boolean value => if value then "True" else "False"
  | date day => applied "datetime.date" day.parts
  | .time t => applied "datetime.time" t.parts
  | dateTime day t offset =>
    applied "datetime.datetime" (day.parts ++ t.parts ++
      match offset with
      | some minutes => ["tzinfo=" ++ offsetTerm minutes]
      | none => [])
  | list items => "[" ++ ", ".intercalate (termAll items) ++ "]"
  | table fields => "\x7b" ++ ", ".intercalate (termFields fields) ++ "\x7d"

/-- Values as terms. -/
def termAll : List TomlValue → List String
  | [] => []
  | item :: items => item.term :: termAll items

/-- Fields as terms. -/
def termFields : List (String × TomlValue) → List String
  | [] => []
  | (name, value) :: fields => (quoted name ++ ": " ++ value.term) :: termFields fields

end

end TomlValue

end DriverPolicy
