import HybridQuantum.Exchange.Numeral

/-!
# Plain words

A word without quotes may stand for nothing, a truth value or a number.  Whole
numbers are written in base ten without leading zeros, or after a mark in base
sixteen, eight or two.
-/

namespace HybridQuantum.Plain

def nullWords : List String :=
  ["~", "null", "Null", "NULL"]

/-- Whether a word says that nothing is there; the empty word does. -/
def isNothing (word : String) : Bool :=
  word.isEmpty || nullWords.contains word

/-- The truth value that a word stands for. -/
def bool? (word : String) : Option Bool :=
  if ["true", "True", "TRUE"].contains word then some true
  else if ["false", "False", "FALSE"].contains word then some false
  else none

/-- The value of digits in a base. -/
def digitsIn? (base : Nat) (digits : List Char) : Option Nat :=
  let value (digit : Char) : Nat :=
    if digit.isDigit then digit.toNat - '0'.toNat
    else if digit.isAlpha then digit.toLower.toNat - 'a'.toNat + 10
    else base
  if digits.isEmpty || !digits.all (value · < base) then none
  else some (digits.foldl (fun total digit => base * total + value digit) 0)

/-- The value of digits after the mark of their base; without a mark it is ten. -/
def magnitude? : List Char → Option Nat
  | '0' :: 'x' :: digits => digitsIn? 16 digits
  | '0' :: 'o' :: digits => digitsIn? 8 digits
  | '0' :: 'b' :: digits => digitsIn? 2 digits
  | '0' :: _ :: _ => none
  | digits => digitsIn? 10 digits

def dropPlus : List Char → List Char
  | '+' :: rest => rest
  | word => word

def nat? (word : List Char) : Option Nat :=
  magnitude? (dropPlus word)

/-- The whole number that a word stands for; a zero keeps its minus sign. -/
def integer? : List Char → Option Numeral
  | '-' :: digits => (magnitude? digits).map (.integer true)
  | word => (nat? word).map (.integer false)

/-- The digits at the beginning of a text, and what follows them. -/
def splitDigits (text : List Char) : List Char × List Char :=
  (text.takeWhile Char.isDigit, text.dropWhile Char.isDigit)

/-- The numeral of digits around a point, one of which must be there, and an exponent. -/
def unsignedDecimal? (negative : Bool) (text : List Char) : Option Numeral :=
  let (whole, rest) := splitDigits text
  let (fraction, rest) := match rest with
    | '.' :: rest => splitDigits rest
    | rest => ([], rest)
  if whole.isEmpty && fraction.isEmpty then none
  else (Numeral.readExponent? rest).map
    (.decimal negative (Numeric.digitsValue whole) fraction)

/-- The words for numbers that are not finite. -/
def unboundedWords : List String :=
  [".inf", ".Inf", ".INF", "+.inf", "+.Inf", "+.INF", "-.inf", "-.Inf", "-.INF",
    ".nan", ".NaN", ".NAN"]

/-- The finite floating-point number that a word stands for. -/
def decimal? (word : List Char) : Option Numeral :=
  let numeral := match word with
    | '-' :: digits => unsignedDecimal? true digits
    | word => unsignedDecimal? false (dropPlus word)
  numeral.filter Numeral.isFinite

/-- Whether a word has leading zeros, which no number in base ten has. -/
def hasLeadingZeros (word : List Char) : Bool :=
  let digits := match word with
    | '-' :: digits => digits
    | word => dropPlus word
  1 < digits.length && digits.head? == some '0' && digits.all Char.isDigit

end HybridQuantum.Plain
