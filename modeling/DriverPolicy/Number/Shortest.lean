import DriverPolicy.Number.Binary

/-!
# The shortest decimal text of a floating-point value

A value is written with the fewest digits that read back as the same value. On the grid of
decimals with a given number of digits only the two neighbours of the value can read back;
the first grid on which one does gives the digits, and of two the nearer is taken. The grids
of many digits contain the value itself, so the search ends.
-/

namespace DriverPolicy

/-- Digits `d` and a power of ten `e`, standing for `d * 10 ^ e`. -/
structure DecimalDigits where
  /-- The significant digits as one number. -/
  digits : Nat
  /-- The power of ten of the last digit. -/
  exponent : Int
deriving DecidableEq, Repr

/-- Whether the decimal `d * 10 ^ e` lies in the interval of reals that round to
`m * 2 ^ p` units, its ends included when the significand is even. -/
def readsBack (m p d : Nat) (e : Int) : Bool :=
  -- all three in quarters of a unit, with the decimal's negative power of ten multiplied out
  let up := match e with | .ofNat k => Nat.pow 10 k | .negSucc _ => 1
  let down := match e with | .ofNat _ => 1 | .negSucc k => Nat.pow 10 (k + 1)
  let value := 4 * d * up * unitsPerOne
  let half := 2 <<< p
  let halfBelow := if m = 1 <<< 52 && 0 < p then 1 <<< p else half
  let low := (4 * (m <<< p) - halfBelow) * down
  let high := (4 * (m <<< p) + half) * down
  if m % 2 = 0 then low ≤ value && value ≤ high else low < value && value < high

/-- The decimal exponent of the leading digit of `n / d`, for a positive quotient. -/
def leadingExponent (n d : Nat) : Int :=
  if d ≤ n then ((Nat.toDigits 10 (n / d)).length : Int) - 1
  else -((Nat.toDigits 10 ((d + n - 1) / n - 1)).length : Int)

/-- The candidate with `count` digits: the neighbour of `n / d` on that grid which reads back
as `m * 2 ^ p` units, the nearer one if both do and the even one on a tie. -/
def neighbour? (m p n d : Nat) (lead : Int) (count : Nat) : Option DecimalDigits :=
  let exponent := lead + 1 - count
  let (n', d') :=
    match exponent with
    | .ofNat k => (n, d * Nat.pow 10 k)
    | .negSucc k => (n * Nat.pow 10 (k + 1), d)
  let low := n' / d'
  let high := low + 1
  let lowFits := readsBack m p low exponent
  let highFits := readsBack m p high exponent
  if lowFits && highFits then
    let twice := 2 * (n' % d')
    some ⟨if twice < d' || (twice = d' && low % 2 = 0) then low else high, exponent⟩
  else if lowFits then some ⟨low, exponent⟩
  else if highFits then some ⟨high, exponent⟩
  else none

/-- The grids that are searched: the longest holds every finite value exactly. -/
def digitCounts : List Nat := (List.range 1100).map (· + 1)

/-- The shortest digits of a positive finite value. -/
def shortestDigits (m p : Nat) : DecimalDigits :=
  let n := m <<< p
  let lead := leadingExponent n unitsPerOne
  (digitCounts.findSome? (neighbour? m p n unitsPerOne lead)).getD ⟨0, 0⟩

/-- How a value is laid out: positional between two decimal exponents, scientific outside. -/
structure FloatLayout where
  /-- The least decimal exponent written positionally. -/
  least : Int
  /-- The decimal exponent from which on the scientific form is used. -/
  bound : Int
  /-- The least number of digits of a written exponent. -/
  exponentWidth : Nat
  /-- The text of positive infinity. -/
  infinity : String
  /-- The text of a value that is not a number. -/
  notANumber : String

/-- Values show positionally from `0.0001` to below `10 ^ 16`, always with a point, and
otherwise with a signed exponent of at least two digits. -/
def plainLayout : FloatLayout := ⟨-4, 16, 2, "inf", "nan"⟩

/-- The digits of a number without trailing zeros; zero keeps one digit. -/
def significantDigits (n : Nat) : List Char :=
  let digits := ((Nat.toDigits 10 n).reverse.dropWhile (· = '0')).reverse
  if digits = [] then ['0'] else digits

/-- Digits `d₁ d₂ …` standing for `d₁.d₂… * 10 ^ lead`, written in a layout. -/
def FloatLayout.place (layout : FloatLayout) (digits : List Char) (lead : Int) : List Char :=
  if layout.least ≤ lead && lead < layout.bound then
    match lead with
    | .ofNat k =>
      let whole := digits.take (k + 1)
      let fraction := digits.drop (k + 1)
      whole ++ List.replicate (k + 1 - whole.length) '0' ++ '.' ::
        (if fraction = [] then ['0'] else fraction)
    | .negSucc k => '0' :: '.' :: (List.replicate k '0' ++ digits)
  else
    let exponent := Nat.toDigits 10 lead.natAbs
    let mantissa :=
      match digits with
      | d :: e :: rest => d :: '.' :: e :: rest
      | short => short
    mantissa ++ 'e' :: (if lead < 0 then '-' else '+') ::
      (List.replicate (layout.exponentWidth - exponent.length) '0' ++ exponent)

/-- The text of a value in a layout. -/
def FloatLayout.write (layout : FloatLayout) : Binary → String
  | .finite negative m p =>
    let sign := if negative then "-" else ""
    if m = 0 then sign ++ String.ofList (layout.place ['0'] 0)
    else
      let short := shortestDigits m p
      let lead := short.exponent + (Nat.toDigits 10 short.digits).length - 1
      sign ++ String.ofList (layout.place (significantDigits short.digits) lead)
  | .infinite negative => (if negative then "-" else "") ++ layout.infinity
  | .notANumber => layout.notANumber

/-- The plain text of a value. -/
def Binary.text (x : Binary) : String := plainLayout.write x

end DriverPolicy
