import DriverPolicy.Number.Binary
import DriverPolicy.Text.Digit

/-!
# Decimal numerals

A decimal numeral is an optional sign, digits with at most one point and at least one digit,
and an optional exponent with a sign of its own. It stands for `digits * 10 ^ exponent`
exactly; its floating-point value is the nearest one. An integer numeral is an optional sign
and one or more digits. Digits may be those of any script.
-/

namespace DriverPolicy

/-- An optional sign in front of a numeral, and whether it is a minus. -/
def splitSign : List Char → Bool × List Char
  | '-' :: rest => (true, rest)
  | '+' :: rest => (false, rest)
  | text => (false, text)

/-- A decimal numeral: `digits * 10 ^ (exponent - shift)`, negated when `negative` holds. -/
structure Decimal where
  /-- Whether a minus stands in front. -/
  negative : Bool
  /-- The digits of the integer part and of the fraction, in order. -/
  digits : List Char
  /-- The number of digits after the point. -/
  shift : Nat
  /-- The written exponent. -/
  exponent : Int
deriving Repr

/-- The exponent part of a numeral: nothing, or `e` with an optional sign and digits. -/
def readExponent : List Char → Option Int
  | [] => some 0
  | c :: rest =>
    if c = 'e' || c = 'E' then
      let (negative, digits) := splitSign rest
      if digits ≠ [] && digits.all isDigit then
        let value : Int := digitsValue digits
        some (if negative then -value else value)
      else none
    else none

/-- Read a whole text as a decimal numeral. -/
def Decimal.read (text : List Char) : Option Decimal :=
  let (negative, body) := splitSign text
  let (whole, rest) := body.span isDigit
  let (fraction, rest) :=
    match rest with
    | '.' :: tail => tail.span isDigit
    | _ => ([], rest)
  if whole = [] && fraction = [] then none
  else (readExponent rest).map fun exponent =>
    { negative, digits := whole ++ fraction, shift := fraction.length, exponent }

/-- Beyond this many digits before the point a numeral exceeds every finite value. -/
def Decimal.largestMagnitude : Int := 400

/-- Below this many digits before the point a numeral is nearest to zero. -/
def Decimal.smallestMagnitude : Int := -400

/-- The floating-point value of 64 bits nearest to a numeral. Numerals whose leading digit is
far outside the range are settled by its place alone, without raising ten to the exponent. -/
def Decimal.toBinary (x : Decimal) : Binary :=
  let digits := x.digits.dropWhile fun c => digitValue? c = some 0
  let exponent := x.exponent - x.shift
  let magnitude := digits.length + exponent
  if digits = [] then .finite x.negative 0 0
  else if Decimal.largestMagnitude < magnitude then .infinite x.negative
  else if magnitude < Decimal.smallestMagnitude then .finite x.negative 0 0
  else
    let n := digitsValue digits * unitsPerOne
    match exponent with
    | .ofNat e => binary64.round x.negative (n * Nat.pow 10 e) 1
    | .negSucc e => binary64.round x.negative n (Nat.pow 10 (e + 1))

/-- The value that a plain text shows; what shows no number is none. -/
def Binary.ofText (text : String) : Binary :=
  match text with
  | "inf" => .infinite false
  | "-inf" => .infinite true
  | other => ((Decimal.read other.toList).map Decimal.toBinary).getD .notANumber

/-- Sign and digits of an integer numeral. -/
def readInteger (text : List Char) : Option (Bool × List Char) :=
  let (negative, digits) := splitSign text
  if digits ≠ [] && digits.all isDigit then some (negative, digits) else none

/-- The integer written by a sign and digits. -/
def signedValue (negative : Bool) (digits : List Char) : Int :=
  if negative then -(digitsValue digits : Int) else digitsValue digits

/-- The most digits that an integer numeral may have to be converted, leading zeros counted. -/
def integerDigitLimit : Nat := 4300

/-- What converting an integer numeral with too many digits answers. -/
def tooManyDigitsMessage (count : Nat) : String :=
  s!"Exceeds the limit ({integerDigitLimit} digits) for integer string conversion: value has " ++
    s!"{count} digits; use sys.set_int_max_str_digits() to increase the limit"

/-- Digits in groups joined by single low lines, without the low lines. -/
def joinDigitGroups : List Char → Option (List Char)
  | [] => none
  | [c] => if isDigit c then some [c] else none
  | c :: '_' :: d :: rest =>
    if isDigit c && isDigit d then (joinDigitGroups (d :: rest)).map (c :: ·) else none
  | c :: rest => if isDigit c then (joinDigitGroups rest).map (c :: ·) else none

/-- Read an integer in its free form: a sign and digits, in which single low lines may stand
between digits. The blanks around it are the caller's to remove. -/
def readFreeInteger (text : List Char) : Option Int :=
  let (negative, body) := splitSign text
  match joinDigitGroups body with
  | some digits =>
    if integerDigitLimit < digits.length then none else some (signedValue negative digits)
  | none => none

end DriverPolicy
