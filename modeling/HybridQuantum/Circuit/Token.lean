import HybridQuantum.Numeric.Decimal

/-!
# Tokens of gate programs
-/

namespace HybridQuantum.Circuit

/-- A token of a gate program. -/
inductive Token where
  | openQasm
  | inclusion
  | qreg
  | creg
  | measure
  | reset
  | barrier
  | pi
  | float (value : Float)
  | int (value : Nat)
  | string (content : String)
  | identifier (name : String)
  | plus
  | minus
  | star
  | slash
  | caret
  | arrow
  | leftParen
  | rightParen
  | leftBracket
  | rightBracket
  | semicolon
  | comma
deriving DecidableEq

namespace Token

/-- The text of a token; a number without exponent, a string between quotes. -/
def text : Token → String
  | openQasm => "OPENQASM"
  | inclusion => "include"
  | qreg => "qreg"
  | creg => "creg"
  | measure => "measure"
  | reset => "reset"
  | barrier => "barrier"
  | pi => "pi"
  | float value => Numeric.shortestText value
  | int value => toString value
  | string content => "\"" ++ content ++ "\""
  | identifier name => name
  | plus => "+"
  | minus => "-"
  | star => "*"
  | slash => "/"
  | caret => "^"
  | arrow => "->"
  | leftParen => "("
  | rightParen => ")"
  | leftBracket => "["
  | rightBracket => "]"
  | semicolon => ";"
  | comma => ","

def keywords : List (String × Token) :=
  [("OPENQASM", openQasm), ("include", inclusion), ("qreg", qreg), ("creg", creg),
    ("measure", measure), ("reset", reset), ("barrier", barrier), ("pi", pi)]

/-- The token of a word: a keyword, or else an identifier. -/
def ofWord (word : String) : Token :=
  (keywords.lookup word).getD (identifier word)

end Token

/-- A token with the line it starts on. -/
structure Spanned where
  token : Token
  line : Nat
deriving DecidableEq

end HybridQuantum.Circuit
