import HybridQuantum.Exchange.Yaml.Scalar.Gap

/-!
# Quoted scalars

Between single quotes a quote is written twice.  Between double quotes a
backslash begins an escape, and a line break after it disappears.  No document
mark may begin a line inside quotes.
-/

namespace HybridQuantum.Yaml.Quoted

/-- The text of a scalar up to the closing quote, and the place after it. -/
abbrev Result := Option (String × Cursor)

/-- The end of a scalar whose text is kept backwards. -/
def close (read : List Char) (gap : Gap) (next : Cursor) : Result :=
  some (String.ofList (gap.onto read).reverse, next)

/-- The rest of a scalar between single quotes. -/
def singleFrom (read : List Char) (gap : Gap) (line column : Nat) : List Char → Result
  | [] => none
  | '\'' :: '\'' :: rest => singleFrom ('\'' :: gap.onto read) .none line (column + 2) rest
  | '\'' :: rest => close read gap ⟨rest, line, column + 1⟩
  | char :: rest =>
      if isBreak char then singleFrom read (gap.pushBreak char) (line + 1) 0 rest
      else if isBlank char then singleFrom read (gap.pushBlank char) line (column + 1) rest
      else if column == 0 && atDocumentMark (char :: rest) then none
      else singleFrom (char :: gap.onto read) .none line (column + 1) rest

/-- The character of an escape of one letter. -/
def letterEscape? : Char → Option Char
  | '0' => some '\x00'
  | 'a' => some '\x07'
  | 'b' => some '\x08'
  | 't' => some '\t'
  | '\t' => some '\t'
  | 'n' => some '\n'
  | 'v' => some '\x0b'
  | 'f' => some '\x0c'
  | 'r' => some '\r'
  | 'e' => some '\x1b'
  | ' ' => some ' '
  | '"' => some '"'
  | '/' => some '/'
  | '\\' => some '\\'
  | 'N' => some '\u0085'
  | '_' => some '\u00a0'
  | 'L' => some '\u2028'
  | 'P' => some '\u2029'
  | _ => none

/-- The number of digits of a code point escape. -/
def codeDigits? : Char → Option Nat
  | 'x' => some 2
  | 'u' => some 4
  | 'U' => some 8
  | _ => none

/-- The character of a code point that is written with some number of digits. -/
def codeChar? (count : Nat) (digits : List Char) : Option Char := do
  let code ← Plain.digitsIn? 16 digits
  if digits.length = count ∧ code.isValidChar then some (Char.ofNat code) else none

/-- The rest of a scalar between double quotes. -/
def doubleFrom (read : List Char) (gap : Gap) (line column : Nat) : List Char → Result
  | [] => none
  | '"' :: rest => close read gap ⟨rest, line, column + 1⟩
  | '\\' :: char :: rest =>
      if isBreak char then doubleFrom (gap.onto read) (.escaped []) (line + 1) 0 rest
      else match codeDigits? char with
        | some count =>
            match codeChar? count (rest.take count) with
            | some meant =>
                doubleFrom (meant :: gap.onto read) .none line (column + 2 + count)
                  (rest.drop count)
            | none => none
        | none =>
            match letterEscape? char with
            | some meant => doubleFrom (meant :: gap.onto read) .none line (column + 2) rest
            | none => none
  | char :: rest =>
      if isBreak char then doubleFrom read (gap.pushBreak char) (line + 1) 0 rest
      else if isBlank char then doubleFrom read (gap.pushBlank char) line (column + 1) rest
      else if column == 0 && atDocumentMark (char :: rest) then none
      else doubleFrom (char :: gap.onto read) .none line (column + 1) rest
termination_by text => text.length
decreasing_by all_goals simp only [List.length_drop, List.length_cons]; omega

/-- The scalar between single quotes, the cursor standing at the first of them. -/
def single? (cursor : Cursor) : Result :=
  let inner := cursor.skip
  singleFrom [] .none inner.line inner.column inner.rest

/-- The scalar between double quotes, the cursor standing at the first of them. -/
def double? (cursor : Cursor) : Result :=
  let inner := cursor.skip
  doubleFrom [] .none inner.line inner.column inner.rest

end HybridQuantum.Yaml.Quoted
