import DriverPolicy.Number.Shortest

/-!
# Decimal texts with a given number of digits

A magnitude in units is written with a number of places after the point, or with a number of
significant digits and an exponent. The digits are those of the nearest decimal of that
length, a tie going to the even last digit. The general form takes whichever of the two suits
the exponent and drops the zeros at its end.
-/

namespace DriverPolicy

/-- A point and the digits after it; a point without digits is written only when `keepPoint`
holds. -/
def pointAnd (keepPoint : Bool) (fraction : List Char) : List Char :=
  if fraction = [] && !keepPoint then [] else '.' :: fraction

/-- The text of a magnitude with a number of places after the point. -/
def fixedPlaces (keepPoint : Bool) (places units : Nat) : List Char :=
  let digits := Nat.toDigits 10 (roundDiv (units * Nat.pow 10 places) unitsPerOne)
  let padded := List.replicate (places + 1 - digits.length) '0' ++ digits
  padded.take (padded.length - places) ++
    pointAnd keepPoint (padded.drop (padded.length - places))

/-- The nearest decimal with `count` significant digits: its digits, and the decimal exponent of
the first of them. -/
def leadingDigits (count units : Nat) : List Char × Int :=
  if units = 0 then (List.replicate count '0', 0)
  else
    let lead := leadingExponent units unitsPerOne
    let rounded :=
      match lead + 1 - count with
      | .ofNat k => roundDiv units (unitsPerOne * Nat.pow 10 k)
      | .negSucc k => roundDiv (units * Nat.pow 10 (k + 1)) unitsPerOne
    if rounded = Nat.pow 10 count then (Nat.toDigits 10 (Nat.pow 10 (count - 1)), lead + 1)
    else (Nat.toDigits 10 rounded, lead)

/-- An exponent with its sign and at least two digits. -/
def exponentPart (exponent : Int) : List Char :=
  let digits := Nat.toDigits 10 exponent.natAbs
  'e' :: (if exponent < 0 then '-' else '+') ::
    (List.replicate (2 - digits.length) '0' ++ digits)

/-- The text of a magnitude with an exponent and a number of places after the point. -/
def scientificPlaces (keepPoint : Bool) (places units : Nat) : List Char :=
  let (digits, exponent) := leadingDigits (places + 1) units
  digits.take 1 ++ pointAnd keepPoint (digits.drop 1) ++ exponentPart exponent

/-- Digits without the zeros at their end. -/
def withoutEndingZeros (digits : List Char) : List Char :=
  (digits.reverse.dropWhile (· = '0')).reverse

/-- The text of a magnitude with a number of significant digits. Without `keepZeros` the zeros
at the end of the fraction are left out. -/
def generalDigits (keepZeros : Bool) (precision units : Nat) : List Char :=
  let count := max 1 precision
  let (digits, exponent) := leadingDigits count units
  let shorten (fraction : List Char) :=
    if keepZeros then fraction else withoutEndingZeros fraction
  if exponent < -4 || (count : Int) ≤ exponent then
    digits.take 1 ++ pointAnd keepZeros (shorten (digits.drop 1)) ++ exponentPart exponent
  else
    match exponent with
    | .ofNat k => digits.take (k + 1) ++ pointAnd keepZeros (shorten (digits.drop (k + 1)))
    | .negSucc k =>
      '0' :: pointAnd keepZeros (shorten (List.replicate k '0' ++ digits))

end DriverPolicy
