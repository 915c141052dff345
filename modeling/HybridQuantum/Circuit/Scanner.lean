import HybridQuantum.Circuit.Error
import HybridQuantum.Numeric.Reading

/-!
# Scanning tokens

The text is cut into the longest tokens from left to right; blanks and comments
separate tokens and are dropped.  Where no token starts, the scan stops with the
byte offset.  Each token knows its line.
-/

namespace HybridQuantum.Circuit

/-- What stands at the beginning of a text. -/
inductive Lexeme where
  /-- A blank or a comment. -/
  | gap
  | token (token : Token)
  | invalid
deriving DecidableEq

/-- A lexeme with the number of characters it takes after the first one. -/
structure ScanStep where
  lexeme : Lexeme
  extra : Nat
deriving DecidableEq

/-- Whether a character separates tokens. -/
def isBlank (char : Char) : Bool :=
  char == ' ' || char == '\t' || char == '\r' || char == '\n'

def startsWord (char : Char) : Bool :=
  char.isAlpha || char == '_'

def isWordChar (char : Char) : Bool :=
  char.isAlphanum || char == '_'

/-- A word: as many word characters as there are. -/
def scanWord (first : Char) (rest : List Char) : ScanStep :=
  let more := rest.takeWhile isWordChar
  ⟨.token (.ofWord (String.ofList (first :: more))), more.length⟩

/-- A string runs to the next quote; without one the whole text is invalid. -/
def scanString (rest : List Char) : ScanStep :=
  let content := rest.takeWhile (· ≠ '"')
  if content.length < rest.length then
    ⟨.token (.string (String.ofList content)), content.length + 1⟩
  else ⟨.invalid, rest.length⟩

/-- An exponent: its mark, an optional sign and at least one digit. -/
structure Exponent where
  negative : Bool
  digits : List Char
  /-- The number of characters it takes. -/
  length : Nat

/-- The exponent at the beginning of a text. -/
def scanExponent? (text : List Char) : Option Exponent :=
  match text with
  | mark :: rest =>
      if mark == 'e' || mark == 'E' then
        let (negative, signs) := match rest with
          | '-' :: _ => (true, 1)
          | '+' :: _ => (false, 1)
          | _ => (false, 0)
        let digits := (rest.drop signs).takeWhile Char.isDigit
        if digits.isEmpty then none else some ⟨negative, digits, 1 + signs + digits.length⟩
      else none
  | [] => none

/-- The value of a number with a fraction and an exponent. -/
def floatValue (whole fraction : List Char) (exponent : Option Exponent) : Float :=
  let power : Int := match exponent with
    | none => 0
    | some exponent =>
        if exponent.negative then -Numeric.digitsValue exponent.digits
        else Numeric.digitsValue exponent.digits
  Numeric.ofDecimal ⟨Numeric.digitsValue (whole ++ fraction), power - fraction.length⟩

/-- A number: a point or an exponent makes it a float, otherwise it must be a 64-bit word. -/
def scanNumber (first : Char) (rest : List Char) : ScanStep :=
  let more := rest.takeWhile Char.isDigit
  let whole := first :: more
  let after := rest.drop more.length
  match after with
  | '.' :: tail =>
      let fraction := tail.takeWhile Char.isDigit
      let exponent := scanExponent? (tail.drop fraction.length)
      ⟨.token (.float (floatValue whole fraction exponent)),
        more.length + 1 + fraction.length + (exponent.map Exponent.length).getD 0⟩
  | _ =>
      match scanExponent? after with
      | some exponent =>
          ⟨.token (.float (floatValue whole [] (some exponent))), more.length + exponent.length⟩
      | none =>
          let value := Numeric.digitsValue whole
          if value < UInt64.size then ⟨.token (.int value), more.length⟩
          else ⟨.invalid, more.length⟩

/-- The lexeme at the beginning of a text. -/
def scanStep (first : Char) (rest : List Char) : ScanStep :=
  if isBlank first then ⟨.gap, 0⟩
  else if startsWord first then scanWord first rest
  else if first.isDigit then scanNumber first rest
  else match first, rest with
    | '"', rest => scanString rest
    | '/', '/' :: rest => ⟨.gap, 1 + (rest.takeWhile (· ≠ '\n')).length⟩
    | '-', '>' :: _ => ⟨.token .arrow, 1⟩
    | '+', _ => ⟨.token .plus, 0⟩
    | '-', _ => ⟨.token .minus, 0⟩
    | '*', _ => ⟨.token .star, 0⟩
    | '/', _ => ⟨.token .slash, 0⟩
    | '^', _ => ⟨.token .caret, 0⟩
    | '(', _ => ⟨.token .leftParen, 0⟩
    | ')', _ => ⟨.token .rightParen, 0⟩
    | '[', _ => ⟨.token .leftBracket, 0⟩
    | ']', _ => ⟨.token .rightBracket, 0⟩
    | ';', _ => ⟨.token .semicolon, 0⟩
    | ',', _ => ⟨.token .comma, 0⟩
    | _, _ => ⟨.invalid, 0⟩

def newlines (text : List Char) : Nat :=
  text.count '\n'

def byteLength (text : List Char) : Nat :=
  (String.ofList text).utf8ByteSize

/-- Scan from a byte offset and a line on. -/
def scanFrom (offset line : Nat) : List Char → Except CircuitError (List Spanned)
  | [] => .ok []
  | first :: rest =>
      let step := scanStep first rest
      let taken := first :: rest.take step.extra
      let others := fun () =>
        scanFrom (offset + byteLength taken) (line + newlines taken) (rest.drop step.extra)
      match step.lexeme with
      | .invalid => .error (.invalidToken offset (String.ofList taken))
      | .gap => others ()
      | .token token => do
          let tokens ← others ()
          return ⟨token, line⟩ :: tokens
termination_by text => text.length
decreasing_by simp only [List.length_drop, List.length_cons]; omega

/-- The tokens of a text, each with its line. -/
def tokenize (text : String) : Except CircuitError (List Spanned) :=
  scanFrom 0 1 text.toList

end HybridQuantum.Circuit
