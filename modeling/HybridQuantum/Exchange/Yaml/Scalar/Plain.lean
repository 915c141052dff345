import HybridQuantum.Exchange.Yaml.Scalar.Gap

/-!
# Plain scalars

A scalar without quotes ends at a colon before a gap, at a comment, at a document
mark and, in a flow collection, at one of its indicators.  In a block collection
its further lines stand at the margin or beyond.
-/

namespace HybridQuantum.Yaml

/-- Where a scalar stands. -/
structure Place where
  /-- Whether it stands in a flow collection. -/
  inFlow : Bool
  /-- The first column that belongs to the innermost block collection's content. -/
  margin : Nat

/-- A plain scalar that has been read. -/
structure PlainScalar where
  text : String
  /-- Whether line breaks follow the scalar. -/
  endsLine : Bool
  next : Cursor

namespace PlainScalar

/-- The characters that may not follow a colon inside a plain scalar of a flow collection. -/
def afterColon : List Char :=
  [',', '?', '[', ']', '\x7b', '\x7d']

/-- Whether a colon stands here that a flow collection does not allow. -/
def atForeignColon (place : Place) : List Char → Bool
  | ':' :: char :: _ => place.inFlow && afterColon.contains char
  | _ => false

/-- Whether a plain scalar ends before a character that is neither blank nor a break. -/
def endsBefore (place : Place) (gap : Gap) (column : Nat) (char : Char) (rest : List Char) : Bool :=
  (gap.isBroken && !place.inFlow && column < place.margin) ||
    (column == 0 && atDocumentMark (char :: rest)) ||
    (char == '#' && !gap.isNone) ||
    (char == ':' && atGap rest) ||
    (place.inFlow && isFlowIndicator char)

/-- The rest of a plain scalar after what has been read, which is kept backwards. -/
def readFrom (place : Place) (read : List Char) (gap : Gap) (line column : Nat) :
    List Char → Option PlainScalar
  | [] => some ⟨String.ofList read.reverse, gap.isBroken, ⟨[], line, column⟩⟩
  | char :: rest =>
      if isBreak char then readFrom place read (gap.pushBreak char) (line + 1) 0 rest
      else if isBlank char then
        if char == '\t' && gap.isBroken && column < place.margin then none
        else readFrom place read (gap.pushBlank char) line (column + 1) rest
      else if endsBefore place gap column char rest then
        some ⟨String.ofList read.reverse, gap.isBroken, ⟨char :: rest, line, column⟩⟩
      else if atForeignColon place (char :: rest) then none
      else readFrom place (char :: gap.onto read) .none line (column + 1) rest

/-- The plain scalar that begins at a cursor. -/
def read? (place : Place) (cursor : Cursor) : Option PlainScalar :=
  readFrom place [] .none cursor.line cursor.column cursor.rest

end PlainScalar

end HybridQuantum.Yaml
