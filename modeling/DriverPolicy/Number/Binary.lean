/-!
# Binary floating-point values

A finite value is a significand times a power of two in units of the smallest positive
binary64 value, `2 ^ -1074`; in that unit every finite value is a natural number with a
sign, so rounding and comparing are exact arithmetic on naturals. A format bounds the
significand's width and the exponent of its last place. Rounding goes to the nearest value
of the format, ties to the even significand, and beyond the format's range to infinity.
-/

namespace DriverPolicy

/-- The exponent of the common unit: a unit is `2 ^ -1074`. -/
def unitExponent : Nat := 1074

/-- The number of units in one. -/
def unitsPerOne : Nat := 1 <<< unitExponent

/-- Width of the significand and range of the exponent of its last place, in units. -/
structure FloatFormat where
  /-- Number of significant bits. -/
  precision : Nat
  /-- The last place of the smallest values counts `2 ^ lowest` units. -/
  lowest : Nat
  /-- The last place of the largest values counts `2 ^ highest` units. -/
  highest : Nat
deriving DecidableEq, Repr

/-- The format of 64 bits. -/
def binary64 : FloatFormat := ⟨53, 0, 2045⟩

/-- The format of 32 bits. -/
def binary32 : FloatFormat := ⟨24, 925, 1178⟩

/-- A floating-point value: `finite s m p` is `m * 2 ^ p` units, negative when `s` holds. -/
inductive Binary where
  | finite (negative : Bool) (significand place : Nat)
  | infinite (negative : Bool)
  | notANumber
deriving DecidableEq, Repr

/-- The quotient `n / d` rounded to the nearest natural number, a tie to the even one. -/
def roundDiv (n d : Nat) : Nat :=
  let q := n / d
  let r := n % d
  if 2 * r < d then q
  else if d < 2 * r then q + 1
  else if q % 2 = 0 then q else q + 1

/-- The last place of a format that suits a magnitude of `n / d` units. -/
def FloatFormat.placeFor (format : FloatFormat) (n d : Nat) : Nat :=
  max format.lowest ((n / d).log2 + 1 - format.precision)

/-- The value of a format nearest to `n / d` units. -/
def FloatFormat.round (format : FloatFormat) (negative : Bool) (n d : Nat) : Binary :=
  let place := format.placeFor n d
  let m := roundDiv n (d <<< place)
  let (m, place) := if m = 1 <<< format.precision then (m / 2, place + 1) else (m, place)
  if format.highest < place then .infinite negative else .finite negative m place

namespace Binary

/-- The magnitude of a finite value in units. -/
def units : Binary → Nat
  | finite _ m p => m <<< p
  | _ => 0

/-- Whether a value is a number other than the infinities. -/
def isFinite : Binary → Bool
  | finite .. => true
  | _ => false

/-- The nearest value of 32 bits, held as a value of 64 bits. -/
def toSingle : Binary → Binary
  | finite s m p =>
    match binary32.round s (m <<< p) 1 with
    | finite s' m' p' => binary64.round s' (m' <<< p') 1
    | other => other
  | other => other

/-- The largest finite value of 32 bits, in units. -/
def singleLimit : Nat := (1 <<< 24 - 1) <<< 1178

/-- Whether a value is finite and within the range of 32 bits. -/
def fitsSingle : Binary → Bool
  | finite _ m p => m <<< p ≤ singleLimit
  | _ => false

/-- Whether a value is below one; a value that is not a number is below nothing. -/
def belowOne : Binary → Bool
  | finite s m p => s || m <<< p < unitsPerOne
  | infinite s => s
  | notANumber => false

/-- Whether two values are equal numbers: zeros of either sign are, and what is not a number equals
nothing. -/
def equals : Binary → Binary → Bool
  | finite s m p, finite s' m' p' => (m = 0 && m' = 0) || (s = s' && m <<< p = m' <<< p')
  | infinite s, infinite s' => s = s'
  | _, _ => false

/-- The value of 64 bits nearest to a natural number. -/
def ofNat (n : Nat) : Binary := binary64.round false (n * unitsPerOne) 1

/-- The value of 64 bits nearest to an integer. -/
def ofInt (n : Int) : Binary := binary64.round (n < 0) (n.natAbs * unitsPerOne) 1

end Binary

end DriverPolicy
