/-!
# The exact value of a floating-point number

A finite binary64 number is a natural number times a power of two.  `classify`
reads both off the bits, so that decimal text and rounding are decided in exact
integer arithmetic.
-/

namespace HybridQuantum.Numeric

/-- The exact content of a binary64 number. -/
inductive Exact where
  | nan
  | infinite (negative : Bool)
  /-- The number `±significand * 2 ^ exponent`; zero keeps its sign. -/
  | finite (negative : Bool) (significand : Nat) (exponent : Int)
deriving DecidableEq, Repr

/-- The number of explicit significand bits. -/
def fractionBits : Nat := 52

/-- The exponent of the last place of the smallest numbers. -/
def leastExponent : Int := -1074

/-- Split a number into sign, significand and exponent. -/
def classify (number : Float) : Exact :=
  let bits : Nat := number.toBits.toNat
  let negative := bits >>> 63 % 2 == 1
  let biased : Nat := bits >>> fractionBits % (1 <<< 11)
  let fraction : Nat := bits % (1 <<< fractionBits)
  if biased = (1 <<< 11) - 1 then
    if fraction = 0 then .infinite negative else .nan
  else if biased = 0 then .finite negative fraction leastExponent
  else .finite negative ((1 <<< fractionBits) + fraction) (leastExponent + ((biased - 1 : Nat) : Int))

/-- `significand * 2 ^ exponent` as a fraction of natural numbers. -/
def ratio (significand : Nat) (exponent : Int) : Nat × Nat :=
  match exponent with
  | .ofNat power => (significand <<< power, 1)
  | .negSucc power => (significand, 1 <<< (power + 1))

/-- The integer nearest to a finite number, a half going away from zero. -/
def nearestInt? (number : Float) : Option Int :=
  match classify number with
  | .finite negative significand exponent =>
      let (numerator, denominator) := ratio significand exponent
      let magnitude : Int := (2 * numerator + denominator) / (2 * denominator)
      some (if negative then -magnitude else magnitude)
  | _ => none

/-- The integer part of a finite number. -/
def truncate? (number : Float) : Option Int :=
  match classify number with
  | .finite negative significand exponent =>
      let (numerator, denominator) := ratio significand exponent
      let magnitude : Int := numerator / denominator
      some (if negative then -magnitude else magnitude)
  | _ => none

end HybridQuantum.Numeric
