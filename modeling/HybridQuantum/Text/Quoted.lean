import HybridQuantum.Text.Printable

/-!
# Quoted text

A text between double quotes, with the quote, the backslash and the common
controls escaped by a backslash and every other hidden character written by its
code point.
-/

namespace HybridQuantum.Text

/-- A code point in hexadecimal between braces. -/
def codePointEscape (char : Char) : String :=
  "\\u\x7b" ++ String.ofList (Nat.toDigits 16 char.toNat) ++ "\x7d"

/-- How a character is written inside double quotes. -/
def escapeChar (char : Char) : String :=
  match char with
  | '\t' => "\\t"
  | '\r' => "\\r"
  | '\n' => "\\n"
  | '"' => "\\\""
  | '\\' => "\\\\"
  | other =>
      if other.toNat = 0 then "\\0"
      else if isPrintable other then other.toString
      else codePointEscape other

/-- A text between double quotes. -/
def quoted (text : String) : String :=
  "\"" ++ String.join (text.toList.map escapeChar) ++ "\""

end HybridQuantum.Text
