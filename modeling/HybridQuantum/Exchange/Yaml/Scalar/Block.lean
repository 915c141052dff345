import HybridQuantum.Exchange.Yaml.Scalar.Plain

/-!
# Block scalars

The lines of a block scalar stand at one column, which its header gives or its
first line shows.  A literal scalar keeps its line breaks; a folded one joins
lines that do not begin with a blank.  The header also says what becomes of the
line breaks at the end.
-/

namespace HybridQuantum.Yaml.Block

/-- What becomes of the line breaks at the end of a scalar. -/
inductive Chomp where
  /-- None is kept. -/
  | strip
  /-- The first is kept. -/
  | clip
  /-- All are kept. -/
  | keep
deriving DecidableEq, Repr

/-- The mark for the end of a scalar that may stand here. -/
def chomp? (cursor : Cursor) : Option Chomp × Cursor :=
  match cursor.rest with
  | '+' :: _ => (some .keep, cursor.skip)
  | '-' :: _ => (some .strip, cursor.skip)
  | _ => (none, cursor)

/-- The indentation that may be given here by one digit, which is not zero. -/
def increment? (cursor : Cursor) : Option (Option Nat × Cursor) :=
  match cursor.rest with
  | '0' :: _ => none
  | digit :: _ =>
      if digit.isDigit then some (some (digit.toNat - '0'.toNat), cursor.skip)
      else some (none, cursor)
  | [] => some (none, cursor)

/-- How the lines of a scalar are read. -/
structure Header where
  chomp : Chomp
  increment : Option Nat

/-- The header line after the indicator, whose two parts come in either order. -/
def header? (cursor : Cursor) : Option (Header × Cursor) := do
  let (before, cursor) := chomp? cursor
  let (increment, cursor) ← increment? cursor
  let (after, cursor) :=
    if before.isNone && increment.isSome then chomp? cursor else (none, cursor)
  let cursor ← cursor.nextLine?
  return (⟨(before <|> after).getD .clip, increment⟩, cursor)

/-- The blank lines before a scalar's first line, their breaks kept backwards. -/
structure Lead where
  breaks : List Char
  /-- The greatest column that spaces reach. -/
  widest : Nat
  next : Cursor

/-- Read blank lines; a tab may not stand where spaces indent. -/
def leadFrom (indent : Option Nat) (breaks : List Char) (widest line column : Nat) :
    List Char → Option Lead
  | [] => some ⟨breaks, max widest column, ⟨[], line, column⟩⟩
  | char :: rest =>
      let inside := indent.all (column < ·)
      if inside && char == ' ' then leadFrom indent breaks widest line (column + 1) rest
      else if inside && char == '\t' then none
      else if isBreak char then
        leadFrom indent (char :: breaks) (max widest column) (line + 1) 0 rest
      else some ⟨breaks, max widest column, ⟨char :: rest, line, column⟩⟩

/-- A scalar that is being read, all texts being kept backwards. -/
structure Body where
  read : List Char
  /-- The break that ends the last line. -/
  lineBreak : List Char
  /-- The breaks of blank lines after it. -/
  more : List Char
  /-- Whether the last line begins with a blank. -/
  indented : Bool
  /-- Whether a line is being read. -/
  inLine : Bool

namespace Body

/-- Join the next line, which begins with `char`. -/
def openLine (folded : Bool) (body : Body) (char : Char) : Body :=
  let joined := folded && body.lineBreak == ['\n'] && !body.indented && !isBlank char
  let gap := if !joined then body.lineBreak else if body.more.isEmpty then [' '] else []
  { read := char :: (body.more ++ gap ++ body.read), lineBreak := [], more := []
    indented := isBlank char, inLine := true }

/-- The text of a scalar that has ended. -/
def close (body : Body) (chomp : Chomp) : String :=
  let ending := match chomp with
    | .strip => []
    | .clip => body.lineBreak
    | .keep => body.more ++ body.lineBreak
  String.ofList (ending ++ body.read).reverse

/-- Read the lines of a scalar from a place on. -/
def readFrom (folded : Bool) (indent : Nat) (body : Body) (line column : Nat) :
    List Char → Option (Body × Cursor)
  | [] => some (body, ⟨[], line, column⟩)
  | char :: rest =>
      if body.inLine then
        if isBreak char then
          readFrom folded indent { body with lineBreak := [char], inLine := false }
            (line + 1) 0 rest
        else readFrom folded indent { body with read := char :: body.read } line (column + 1) rest
      else if column < indent && char == ' ' then
        readFrom folded indent body line (column + 1) rest
      else if column < indent && char == '\t' then none
      else if isBreak char then
        readFrom folded indent { body with more := char :: body.more } (line + 1) 0 rest
      else if column == indent then
        readFrom folded indent (body.openLine folded char) line (column + 1) rest
      else some (body, ⟨char :: rest, line, column⟩)

end Body

/--
The column of a scalar's lines: the header counts from the enclosing collection,
and without it the first line decides, which stands at the margin or beyond.
-/
def indentOf (header : Header) (margin widest : Nat) : Nat :=
  match header.increment with
  | some increment => margin - 1 + increment
  | none => max widest (max margin 1)

/-- The block scalar whose indicator stands at the cursor. -/
def read? (folded : Bool) (margin : Nat) (cursor : Cursor) : Option (String × Cursor) := do
  let (header, cursor) ← header? cursor.skip
  let given := header.increment.map fun _ => indentOf header margin 0
  let lead ← leadFrom given [] 0 cursor.line cursor.column cursor.rest
  let body : Body := ⟨[], [], lead.breaks, false, false⟩
  let (body, next) ←
    body.readFrom folded (indentOf header margin lead.widest) lead.next.line lead.next.column
      lead.next.rest
  return (body.close header.chomp, next)

end HybridQuantum.Yaml.Block
