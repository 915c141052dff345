import HybridQuantum.Name
import HybridQuantum.Numeric.Decimal
import HybridQuantum.Text.Quoted

/-!
# Primitive values

The values a program computes with, their bit patterns and their text.
-/

namespace HybridQuantum

/-- A primitive value. -/
inductive Value where
  | null
  | bool (value : Bool)
  | int (value : Int64)
  | uint (value : UInt64)
  | float (value : Float)
  | char (value : Char)
  | str (value : String)
deriving DecidableEq

namespace Value

/-- The bit pattern of a value that has one; a negative number has none. -/
def bits? : Value → Option UInt64
  | null => some 0
  | bool value => some (if value then 1 else 0)
  | uint value => some value
  | int value => if 0 ≤ value.toInt then some (UInt64.ofNat value.toInt.toNat) else none
  | char value => some (UInt64.ofNat value.toNat)
  | float _ => none
  | str _ => none

def text : Value → String
  | null => "null"
  | bool value => if value then "true" else "false"
  | int value => toString value.toInt
  | uint value => toString value.toNat
  | float value => Numeric.shortestText value
  | char value => "'" ++ value.toString ++ "'"
  | str value => Text.quoted value

end Value

end HybridQuantum
