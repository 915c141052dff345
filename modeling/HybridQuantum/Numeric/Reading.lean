import HybridQuantum.Numeric.Decimal

/-!
# Reading decimals

`ofDecimal` is the binary64 number nearest to a decimal, a tie going to the even
significand.  Exponents far outside the range of the format are cut off first,
so the work stays bounded.
-/

namespace HybridQuantum.Numeric

/-- The value of a run of decimal digits. -/
def digitsValue (digits : List Char) : Nat :=
  digits.foldl (fun total digit => 10 * total + (digit.toNat - '0'.toNat)) 0

/-- The infinite number. -/
def infinity : Float :=
  Float.ofBits 0x7ff0000000000000

/-- The number nearest to `digits * 10 ^ exponent`. -/
def ofDecimal (decimal : Decimal) : Float :=
  let leading : Int := digitCount decimal.digits + decimal.exponent
  if decimal.digits = 0 ∨ leading < -330 then 0
  else if 320 < leading then infinity
  else match decimal.exponent with
    | .ofNat power => Float.ofScientific decimal.digits false power
    | .negSucc less => Float.ofScientific decimal.digits true (less + 1)

end HybridQuantum.Numeric
