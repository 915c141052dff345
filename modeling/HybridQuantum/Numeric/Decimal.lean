import HybridQuantum.Numeric.Classify

/-!
# Decimal text of numbers

Two texts of a binary64 number.  `shortestText` has the fewest digits that read
back as the number, written without an exponent.  `scientificText` has a fixed
number of places after the point, correctly rounded, and an exponent.
-/

namespace HybridQuantum.Numeric

/-- A positive decimal `digits * 10 ^ exponent`. -/
structure Decimal where
  digits : Nat
  exponent : Int
deriving DecidableEq, Repr

/-- The number of decimal digits of `number`; zero has one. -/
def digitCount (number : Nat) : Nat :=
  (Nat.toDigits 10 number).length

/-- `value * 10 ^ (-power)` as a fraction, for a fraction `value`. -/
def scaleDown (value : Nat × Nat) (power : Int) : Nat × Nat :=
  match power with
  | .ofNat places => (value.1, value.2 * Nat.pow 10 places)
  | .negSucc places => (value.1 * Nat.pow 10 (places + 1), value.2)

/-- The exponent of the leading decimal digit of a positive fraction. -/
def leadingPlace (value : Nat × Nat) : Int :=
  if value.2 ≤ value.1 then (digitCount (value.1 / value.2) : Int) - 1
  else -(digitCount ((value.2 + value.1 - 1) / value.1 - 1) : Int)

/-- The decimals that read back as one number, as quarters of its last place. -/
structure Interval where
  lower : Nat
  value : Nat
  upper : Nat
  /-- Whether the two ends still read back as the number. -/
  closed : Bool

/--
The interval around `significand * 2 ^ exponent`.  Below a power of two the next
number is half as far away.
-/
def Interval.around (significand : Nat) (exponent : Int) : Interval where
  lower := 4 * significand -
    (if significand = 1 <<< fractionBits ∧ leastExponent < exponent then 1 else 2)
  value := 4 * significand
  upper := 4 * significand + 2
  closed := significand % 2 == 0

/-- Whether the fraction `point`, in units of `unit`, lies in the interval. -/
def Interval.holds (interval : Interval) (point unit : Nat) : Bool :=
  if interval.closed then
    interval.lower * unit ≤ point && point ≤ interval.upper * unit
  else interval.lower * unit < point && point < interval.upper * unit

/-- Drop the zeros at the end of a decimal. -/
def Decimal.trim (decimal : Decimal) : Decimal :=
  let zeros := ((Nat.toDigits 10 decimal.digits).reverse.takeWhile (· == '0')).length
  if decimal.digits = 0 then decimal
  else ⟨decimal.digits / Nat.pow 10 zeros, decimal.exponent + zeros⟩

/--
The neighbour on the grid of multiples of `10 ^ place` that reads back as
`significand * 2 ^ exponent`; the nearer of two, and the upper one of two equally near.
-/
def gridNeighbour? (significand : Nat) (exponent place : Int) : Option Decimal :=
  let interval := Interval.around significand exponent
  let (quarter, scale) := scaleDown (ratio 1 (exponent - 2)) place
  let below := interval.value * quarter / scale
  let above := below + 1
  let downHits := interval.holds (below * scale) quarter
  let upHits := interval.holds (above * scale) quarter
  let upNearer := 2 * (interval.value * quarter - below * scale) ≥ scale
  if upHits && (!downHits || upNearer) then some ⟨above, place⟩
  else if downHits then some ⟨below, place⟩
  else none

/-- The fewest digits that read back as `significand * 2 ^ exponent`, for a positive significand. -/
def shortest (significand : Nat) (exponent : Int) : Decimal :=
  let leading := leadingPlace (ratio significand exponent)
  let found := (List.range 17).findSome? fun (more : Nat) =>
    gridNeighbour? significand exponent (leading - (more : Int))
  (found.getD ⟨0, 0⟩).trim

/-- The text of a decimal without an exponent. -/
def Decimal.positional (decimal : Decimal) : String :=
  let digits := Nat.toDigits 10 decimal.digits
  match decimal.exponent with
  | .ofNat zeros => String.ofList (digits ++ List.replicate zeros '0')
  | .negSucc less =>
      let places := less + 1
      if places < digits.length then
        String.ofList (digits.take (digits.length - places) ++ '.' ::
          digits.drop (digits.length - places))
      else String.ofList ('0' :: '.' :: List.replicate (places - digits.length) '0' ++ digits)

def signText (negative : Bool) : String :=
  if negative then "-" else ""

/--
The fewest digits that read back, never an exponent, no point in a whole number,
and a sign on a negative zero.
-/
def shortestText (number : Float) : String :=
  match classify number with
  | .nan => "NaN"
  | .infinite negative => signText negative ++ "inf"
  | .finite negative 0 _ => signText negative ++ "0"
  | .finite negative significand exponent =>
      signText negative ++ (shortest significand exponent).positional

/-- The quotient rounded to the nearest natural number, a half going to the even one. -/
def roundHalfEven (numerator denominator : Nat) : Nat :=
  let quotient := numerator / denominator
  let rest := 2 * (numerator % denominator)
  if rest > denominator || (rest == denominator && quotient % 2 == 1) then quotient + 1
  else quotient

/-- A positive fraction rounded to `places + 1` significant digits. -/
def significantDigits (value : Nat × Nat) (places : Nat) : Decimal :=
  let last := leadingPlace value - places
  let (numerator, denominator) := scaleDown value last
  let rounded := roundHalfEven numerator denominator
  if rounded < Nat.pow 10 (places + 1) then ⟨rounded, last⟩ else ⟨rounded / 10, last + 1⟩

/-- One digit, a point, `places` digits, and a plain exponent. -/
def scientificText (places : Nat) (number : Float) : String :=
  match classify number with
  | .nan => "NaN"
  | .infinite negative => signText negative ++ "inf"
  | .finite negative 0 _ =>
      signText negative ++ String.ofList ('0' :: '.' :: List.replicate places '0') ++ "e0"
  | .finite negative significand exponent =>
      let decimal := significantDigits (ratio significand exponent) places
      let digits := Nat.toDigits 10 decimal.digits
      signText negative ++ String.ofList (digits.take 1 ++ '.' :: digits.drop 1) ++ "e" ++
        toString (decimal.exponent + places)

end HybridQuantum.Numeric
