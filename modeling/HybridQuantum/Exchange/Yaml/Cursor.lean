import HybridQuantum.Exchange.Datum

/-!
# Places in YAML texts

A text is prepared once: every character must be allowed, and the usual line
breaks become line feeds.  After that each line break is one character, so the
line and the column of a place follow from the characters before it.  A byte
order mark takes a column like any other character.
-/

namespace HybridQuantum.Yaml

/-- The mark that may stand before the content of a line. -/
def byteOrderMark : Char := '\ufeff'

/-- The characters that a text may have. -/
def isAllowed (char : Char) : Bool :=
  let code := char.toNat
  code == 0x9 || code == 0xa || code == 0xd || (0x20 ≤ code && code ≤ 0x7e) || code == 0x85 ||
    (0xa0 ≤ code && code ≤ 0xfffd) || 0x10000 ≤ code

/-- The text so far, backwards, and whether it ends in a carriage return. -/
structure Unified where
  read : List Char
  afterReturn : Bool

/-- One more character; a line feed after a carriage return belongs to it. -/
def Unified.push (unified : Unified) : Char → Unified
  | '\n' => if unified.afterReturn then ⟨unified.read, false⟩ else ⟨'\n' :: unified.read, false⟩
  | '\r' => ⟨'\n' :: unified.read, true⟩
  | '\u0085' => ⟨'\n' :: unified.read, false⟩
  | char => ⟨char :: unified.read, false⟩

/-- A text with line feeds for the usual line breaks. -/
def unifyBreaks (text : List Char) : List Char :=
  (text.foldl Unified.push ⟨[], false⟩).read.reverse

/-- The characters to scan, if all of them are allowed. -/
def prepare? (text : String) : Option (List Char) :=
  let content := text.toList
  if content.all isAllowed then some (unifyBreaks content) else none

/-- A space or a tab. -/
def isBlank (char : Char) : Bool :=
  char == ' ' || char == '\t'

/-- The end of a line; the separators of lines and paragraphs are kept in a text. -/
def isBreak (char : Char) : Bool :=
  char == '\n' || char == '\u2028' || char == '\u2029'

/-- The characters of names: letters, digits, the underscore and the hyphen. -/
def isWord (char : Char) : Bool :=
  char.isAlphanum || char == '_' || char == '-'

/-- The characters that structure flow collections. -/
def isFlowIndicator (char : Char) : Bool :=
  char == ',' || char == '[' || char == ']' || char == '\x7b' || char == '\x7d'

/-- Whether a line ends here. -/
def atLineEnd : List Char → Bool
  | [] => true
  | char :: _ => isBreak char

/-- Whether a word ends here: at a blank or at the end of a line. -/
def atGap : List Char → Bool
  | [] => true
  | char :: _ => isBlank char || isBreak char

/-- Whether one of the marks that begin and end documents stands here. -/
def atDocumentMark : List Char → Bool
  | '-' :: '-' :: '-' :: rest => atGap rest
  | '.' :: '.' :: '.' :: rest => atGap rest
  | _ => false

/-- A place in a text: what is left of it, and the line and column there. -/
structure Cursor where
  rest : List Char
  line : Nat
  column : Nat

namespace Cursor

def start (text : List Char) : Cursor :=
  ⟨text, 0, 0⟩

/-- The place after one character. -/
def skip (cursor : Cursor) : Cursor :=
  match cursor.rest with
  | [] => cursor
  | char :: rest =>
      if isBreak char then ⟨rest, cursor.line + 1, 0⟩ else ⟨rest, cursor.line, cursor.column + 1⟩

/-- The place after some characters. -/
def advance (cursor : Cursor) : Nat → Cursor
  | 0 => cursor
  | count + 1 => cursor.skip.advance count

/-- The longest run of characters of a class, and the place after it. -/
def span (cursor : Cursor) (accepts : Char → Bool) : List Char × Cursor :=
  let run := cursor.rest.takeWhile accepts
  (run, cursor.advance run.length)

def skipBlanks (cursor : Cursor) : Cursor :=
  (cursor.span isBlank).2

/-- The place after the comment that may stand here. -/
def skipComment (cursor : Cursor) : Cursor :=
  match cursor.rest with
  | '#' :: _ => (cursor.span fun char => !isBreak char).2
  | _ => cursor

/-- The beginning of the next line, if nothing but blanks and a comment is left of this one. -/
def nextLine? (cursor : Cursor) : Option Cursor :=
  let ending := cursor.skipBlanks.skipComment
  if atLineEnd ending.rest then some ending.skip else none

end Cursor

end HybridQuantum.Yaml
