import HybridQuantum.Numeric.Reading
import HybridQuantum.Word

/-!
# Numbers as they are written

A numeral keeps what a text says about a number, so that a reader may ask for an
integer of some width or for a floating-point number.  The floating-point value
takes as many leading digits as a 64-bit word holds and scales them by one power
of ten, which is rounded twice; it is not always the nearest number.
-/

namespace HybridQuantum

/-- A number as it is written. -/
inductive Numeral where
  /-- A number without a point and without an exponent. -/
  | integer (negative : Bool) (magnitude : Nat)
  /-- A number with a point or an exponent, and the digits after the point. -/
  | decimal (negative : Bool) (whole : Nat) (fraction : List Char) (exponent : Int)
deriving DecidableEq, Repr

namespace Numeral

def ofInt (number : Int) : Numeral :=
  .integer (number < 0) number.natAbs

def int? : Numeral → Option Int
  | integer false magnitude => some magnitude
  | integer true magnitude => some (-magnitude)
  | decimal _ _ _ _ => none

def nat? (numeral : Numeral) : Option Nat :=
  numeral.int?.bind Int.toNat?

/-- Leading digits and the power of ten they are scaled by. -/
structure Leading where
  word : Nat
  power : Int

/-- The word with one more digit, while it fits 64 bits. -/
def pushDigit? (word : Nat) (digit : Char) : Option Nat :=
  let next := 10 * word + (digit.toNat - '0'.toNat)
  if next < UInt64.size then some next else none

/-- Digits before the point: once the word is full, the others only raise the power. -/
def takeWhole (word : Nat) : List Char → Leading
  | [] => ⟨word, 0⟩
  | digit :: rest =>
      match pushDigit? word digit with
      | some next => takeWhole next rest
      | none => ⟨word, rest.length + 1⟩

/-- Digits after the point: once the word is full, the others are dropped. -/
def takeFraction (leading : Leading) : List Char → Leading
  | [] => leading
  | digit :: rest =>
      match pushDigit? leading.word digit with
      | some next => takeFraction ⟨next, leading.power - 1⟩ rest
      | none => leading

/-- The greatest power of ten that is a finite number. -/
def greatestPower : Nat := 308

/-- The number nearest to a power of ten. -/
def powerOfTen (power : Nat) : Float :=
  Numeric.ofDecimal ⟨1, power⟩

/-- A number divided by a power of ten, in steps that are finite numbers themselves. -/
def scaleDown (number : Float) (places : Nat) : Float :=
  if places ≤ greatestPower then number / powerOfTen places
  else if number == 0 then number
  else scaleDown (number / powerOfTen greatestPower) (places - greatestPower)
termination_by places
decreasing_by simp only [greatestPower] at *; omega

/-- A number times a power of ten, when it stays finite. -/
def scale? (number : Float) : Int → Option Float
  | .ofNat places =>
      if places ≤ greatestPower then
        let scaled := number * powerOfTen places
        if scaled.isInf then none else some scaled
      else if number == 0 then some number
      else none
  | .negSucc less => some (scaleDown number (less + 1))

/-- The value of leading digits, with a sign. -/
def Leading.float? (leading : Leading) (negative : Bool) : Option Float :=
  (scale? (UInt64.ofNat leading.word).toFloat leading.power).map fun number =>
    if negative then -number else number

/-- The floating-point value of a numeral, when it is finite. -/
def float? : Numeral → Option Float
  | integer negative magnitude =>
      (takeWhole 0 (Nat.toDigits 10 magnitude)).float? negative
  | decimal negative whole fraction exponent =>
      let leading := takeFraction (takeWhole 0 (Nat.toDigits 10 whole)) fraction
      Leading.float? ⟨leading.word, leading.power + exponent⟩ negative

/-- Whether the number nearest to a numeral is finite. -/
def isFinite : Numeral → Bool
  | integer _ magnitude => !(Numeric.ofDecimal ⟨magnitude, 0⟩).isInf
  | decimal _ whole fraction exponent =>
      let digits := whole * Nat.pow 10 fraction.length + Numeric.digitsValue fraction
      !(Numeric.ofDecimal ⟨digits, exponent - fraction.length⟩).isInf

/-- The numeral of a finite floating-point number: the fewest digits, one before the point. -/
def ofFloat? (number : Float) : Option Numeral :=
  match Numeric.classify number with
  | .nan => none
  | .infinite _ => none
  | .finite negative 0 _ => some (.decimal negative 0 ['0'] 0)
  | .finite negative significand exponent =>
      let shortest := Numeric.shortest significand exponent
      let digits := Nat.toDigits 10 shortest.digits
      let places := digits.length - 1
      let fraction := digits.drop 1
      some (.decimal negative (shortest.digits / Nat.pow 10 places)
        (if fraction.isEmpty then ['0'] else fraction) (shortest.exponent + places))

def signText (negative : Bool) : String :=
  if negative then "-" else ""

/-- The text of a numeral; an exponent of zero is left out after a point. -/
def text : Numeral → String
  | integer negative magnitude => signText negative ++ toString magnitude
  | decimal negative whole fraction exponent =>
      signText negative ++ toString whole ++
        (if fraction.isEmpty then "" else "." ++ String.ofList fraction) ++
        (if exponent = 0 ∧ !fraction.isEmpty then "" else "e" ++ toString exponent)

/-- The sign, the digits after it, and whether there is a sign. -/
def splitSign : List Char → Bool × List Char
  | '-' :: rest => (true, rest)
  | rest => (false, rest)

/-- The digits after the point; a point needs some. -/
def readFraction? : List Char → Option (List Char × List Char)
  | '.' :: rest =>
      let digits := rest.takeWhile Char.isDigit
      if digits.isEmpty then none else some (digits, rest.drop digits.length)
  | rest => some ([], rest)

/-- The exponent that ends a numeral; its mark needs digits. -/
def readExponent? : List Char → Option Int
  | [] => some 0
  | mark :: rest =>
      let (negative, digits) := match rest with
        | '+' :: digits => (false, digits)
        | '-' :: digits => (true, digits)
        | digits => (false, digits)
      if (mark == 'e' || mark == 'E') && !digits.isEmpty && digits.all Char.isDigit then
        let magnitude : Int := Numeric.digitsValue digits
        some (if negative then -magnitude else magnitude)
      else none

/--
The numeral that a word writes.  Whole numbers have no leading zeros, and a zero
with a minus sign is no whole number.
-/
def ofWord? (word : List Char) : Option Numeral :=
  let (negative, digits) := splitSign word
  let whole := digits.takeWhile Char.isDigit
  if whole.isEmpty || (whole.head? == some '0' && 1 < whole.length) then none
  else match digits.drop whole.length with
    | [] =>
        if negative && whole == ['0'] then some (.decimal true 0 ['0'] 0)
        else some (.integer negative (Numeric.digitsValue whole))
    | after => do
        let (fraction, rest) ← readFraction? after
        let exponent ← readExponent? rest
        return .decimal negative (Numeric.digitsValue whole) fraction exponent

end Numeral

end HybridQuantum
