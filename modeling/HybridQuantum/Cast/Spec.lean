import HybridQuantum.Cast.Conversion
import HybridQuantum.Numeric.Classify

/-!
# Shaping measured outcomes

A resolver reduces counts to a number or a bitstring; a spec turns either into a
value of the target's family.  The exact range of the target is checked later.
-/

namespace HybridQuantum

/-- How a number or a bitstring becomes a value. -/
inductive Spec where
  /-- Rounded to the nearest integer. -/
  | int
  /-- Kept as it is. -/
  | float
  /-- Rounded, then read as a code point. -/
  | char
  /-- Whether it is not zero. -/
  | bool
  /-- The bitstring itself. -/
  | bitstring
deriving DecidableEq, Repr

namespace Spec

def text : Spec → String
  | int => "Int"
  | float => "Float"
  | char => "Char"
  | bool => "Bool"
  | bitstring => "Bitstring"

/-- The spec of a classical builtin; quantum and user types have none. -/
def ofName? (name : Name) : Option Spec :=
  (ClassicalType.ofName? name).map fun
    | .int => int
    | .unsigned _ => int
    | .float => float
    | .char => char
    | .bool => bool
    | .str => bitstring

def binaryText (number : Nat) : String :=
  String.ofList (Nat.toDigits 2 number)

/-- The value of a rounded number. -/
def ofRounded? (spec : Spec) (number : Float) (rounded : Int) : Option Value :=
  match spec with
  | float => some (.float number)
  | int =>
      (Word.ofInt64? rounded).map .int
  | char =>
      if 0 ≤ rounded ∧ rounded < UInt32.size then (charOfCode? rounded.toNat).map .char else none
  | bool => some (.bool (rounded != 0))
  | bitstring =>
      if 0 ≤ rounded ∧ rounded < UInt64.size then some (.str (binaryText rounded.toNat)) else none

/-- The value of a number, which must be finite. -/
def ofNumber? (spec : Spec) (number : Float) : Option Value :=
  (Numeric.nearestInt? number).bind (spec.ofRounded? number)

/-- The number a row of binary digits stands for. -/
def digitsValue (digits : List Char) : Nat :=
  digits.foldl (fun total digit => 2 * total + (if digit == '1' then 1 else 0)) 0

/-- A bitstring as a word: at least one binary digit, after at most one plus sign. -/
def readBits? (bits : String) : Option UInt64 :=
  let digits := match bits.toList with
    | '+' :: rest => rest
    | rest => rest
  if digits.isEmpty || !digits.all (fun digit => digit == '0' || digit == '1') then none
  else
    let value := digitsValue digits
    Word.ofNat64? value

/-- The value of a measured bitstring, read as a number unless it is kept. -/
def ofBitstring? (spec : Spec) (bits : String) : Option Value :=
  match spec with
  | bitstring => some (.str bits)
  | int => (readBits? bits).map .uint
  | float => (readBits? bits).map fun word => .float word.toFloat
  | char => (readBits? bits).bind fun word => (charOfCode? word.toNat).map .char
  | bool => (readBits? bits).map fun word => .bool (word != 0)

end Spec

end HybridQuantum
